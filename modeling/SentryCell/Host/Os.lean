import SentryCell.Host.Chunks
import SentryCell.Host.Evidence
import SentryCell.Lib.Calls
/-!
# What the supervisor opens

The calls that the supervisor's commands make of the system, each of which
may raise, and the methods of `SerialLink`, `CsvLogger` and
`FaultInjectionCsvLogger` on the two attributes that hold what is open.
`Owned` ties the attributes to what the log has open, and `Owning` says of
a script that it keeps to it: so does every method, and every script that
is made of them.
-/

namespace SentryCell.Host

open Calls

/-! ## Exceptions -/

/-- The classes of the exceptions. A class stands for its subclasses too,
but for those that are named. -/
inductive ErrorKind where
  | osError
  /-- An `OSError`. -/
  | fileExistsError
  | protocolError
  | crcError
  | serialLinkError
  | serialTimeoutError
  | supervisorError
  | valueError
  | saturatedCounterError
  | validationCampaignError
  | runtimeError
  /-- Any other subclass of `Exception`, by its name. -/
  | other (name : String)
  deriving DecidableEq, Repr

/-- **An exception**: its class and its text. -/
structure Raised where
  kind : ErrorKind
  text : String
  deriving DecidableEq, Repr

/-- What the codec raises. -/
def PyError.raised : PyError → Raised
  | .protocolError message => ⟨.protocolError, message⟩
  | .crcError message => ⟨.crcError, message⟩
  | .valueError message => ⟨.valueError, message⟩

/-! ## The calls of the system -/

/-- The attributes of a terminal that `SerialLink.open` sets. -/
structure Attributes where
  iflag : ℕ
  oflag : ℕ
  cflag : ℕ
  lflag : ℕ
  ispeed : ℕ
  ospeed : ℕ
  vmin : ℕ
  vtime : ℕ
  deriving DecidableEq, Repr

/-- The constants of `termios` it sets them to. -/
structure Termios where
  cs8 : ℕ
  cread : ℕ
  clocal : ℕ
  b9600 : ℕ
  deriving DecidableEq, Repr

/-- What `subprocess.run` returns. -/
structure Completed where
  returncode : ℤ
  stdout : String
  stderr : String
  deriving DecidableEq, Repr

/-- The local time, and how it is spelled. -/
structure LocalTime where
  dateTime : DateTime
  isoformat : String
  deriving DecidableEq, Repr

/-- **A call of the system.** `receive` is what `read_exact` does on the
descriptor: the loop of `select` and `read` up to its deadline. -/
inductive OsCall where
  /-- `os.open`, with `O_RDWR | O_NOCTTY | O_NONBLOCK`. -/
  | openPort (port : String)
  | tcgetattr (fd : ℕ)
  | tcsetattr (fd : ℕ) (attributes : Attributes)
  | closePort (fd : ℕ)
  | writePort (fd : ℕ) (data : List Byte)
  | tcdrain (fd : ℕ)
  | receive (fd size : ℕ) (timeoutS : ℚ)
  | tcflush (fd : ℕ)
  | sleep (seconds : ℚ)
  | monotonic
  /-- `datetime.now().astimezone()`. -/
  | now
  /-- `path.parent.mkdir(parents=True, exist_ok=True)`. -/
  | makeParents (path : String)
  /-- `path.open("w", newline="", encoding="utf-8")`. -/
  | openFile (path : String)
  /-- `writerow` and `writeheader`. -/
  | writeRow (file : ℕ) (row : List String)
  | flush (file : ℕ)
  | closeFile (file : ℕ)
  /-- `print`, of the text with its end. -/
  | print (text : String)
  /-- `print` to `sys.stderr`. -/
  | printError (text : String)
  /-- `path.is_file()`. -/
  | isFile (path : String)
  /-- `path.exists()`. -/
  | «exists» (path : String)
  /-- `path.is_dir()`. -/
  | isDir (path : String)
  /-- `subprocess.run`, with its output captured. -/
  | run (command : List String)
  /-- `_sha256_file`. -/
  | sha256File (path : String)
  /-- `path.open("x", encoding="utf-8")`. -/
  | createFile (path : String)
  | writeText (file : ℕ) (text : String)
  deriving DecidableEq, Repr

/-- What a call returns. -/
@[reducible] def OsCall.Reply : OsCall → Type
  | .openPort _ => ℕ
  | .tcgetattr _ => Attributes
  | .writePort _ _ => ℕ
  | .receive _ size _ => { bytes : List Byte // bytes.length = size }
  | .monotonic => ℚ
  | .now => LocalTime
  | .openFile _ => ℕ
  | .isFile _ => Bool
  | .exists _ => Bool
  | .isDir _ => Bool
  | .run _ => Completed
  | .sha256File _ => String
  | .createFile _ => ℕ
  | _ => Unit

abbrev OsEntry := Entry OsCall.Reply Raised
abbrev OsLog := Log OsCall.Reply Raised

/-! ## The objects -/

/-- **The attributes** `SerialLink._fd` and `CsvLogger._file`. -/
structure Handles where
  fd : Option ℕ
  file : Option ℕ
  deriving DecidableEq, Repr

/-- A script of the supervisor. -/
abbrev HostM := Script OsCall.Reply Raised Handles

/-- One call of the system. -/
def os (c : OsCall) : HostM c.Reply := Script.call c

/-- `print(line)`. -/
def print (line : String) : HostM Unit := os (.print (line ++ "\n"))

/-- `print` of one line after the other. -/
def printAll (lines : List String) : HostM Unit := Script.forEach (fun _ line => print line) lines ()

namespace SerialLink

/-- The attributes of the port, 9600 8N1 and raw. -/
def portAttributes (t : Termios) (attributes : Attributes) : Attributes :=
  { attributes with
    iflag := 0
    oflag := 0
    cflag := t.cs8 ||| t.cread ||| t.clocal
    lflag := 0
    ispeed := t.b9600
    ospeed := t.b9600
    vmin := 0
    vtime := 0 }

/-- `SerialLink.open`. -/
def «open» (t : Termios) (port : String) : HostM Unit := do
  let held ← Script.read Handles.fd
  if held.isSome then Script.raise ⟨.serialLinkError, "serial port is already open"⟩
  else do
    let fd ← os (.openPort port)
    let configure : HostM Unit := do
      let attributes ← os (.tcgetattr fd)
      os (.tcsetattr fd (portAttributes t attributes))
    -- the attribute is not set yet, so the descriptor is closed here
    configure.handle fun e => do
      os (.closePort fd)
      Script.raise e
    Script.modify fun h => { h with fd := some fd }

/-- `SerialLink.close`. -/
def close : HostM Unit := do
  let held ← Script.read Handles.fd
  match held with
  | none => pure ()
  | some fd => do
    -- forgotten first, so that a close that raises is not repeated
    Script.modify fun h => { h with fd := none }
    os (.closePort fd)

/-- `SerialLink._require_fd`. -/
def requireFd : HostM ℕ := do
  let held ← Script.read Handles.fd
  match held with
  | none => Script.raise ⟨.serialLinkError, "serial port is not open"⟩
  | some fd => pure fd

/-- `SerialLink.write`. -/
def write (data : List Byte) : HostM Unit :=
  if data = [] then pure ()
  else do
    let fd ← requireFd
    let written ← os (.writePort fd data)
    if written ≠ data.length then
      Script.raise ⟨.serialLinkError, "partial serial write: wrote " ++ toString written ++ " of " ++
        toString data.length ++ " bytes"⟩
    else os (.tcdrain fd)

/-- `SerialLink.read_exact`. -/
def readExact (size : ℤ) (timeoutS : ℚ) : HostM (List Byte) :=
  if size < 0 then Script.raise ⟨.valueError, "size must be non-negative"⟩
  else if timeoutS < 0 then Script.raise ⟨.valueError, "timeout_s must be non-negative"⟩
  else if size = 0 then pure []
  else do
    let fd ← requireFd
    let bytes ← os (.receive fd size.toNat timeoutS)
    pure bytes.1

/-- `RX_TIMEOUT_RECOVERY_SETTLE_SECONDS`. -/
def rxTimeoutRecoverySettleSeconds : ℚ := 1 / 10 + 14 * 10 / 9600

/-- `SerialLink.recover_rx_after_timeout`. -/
def recoverRxAfterTimeout : HostM Unit := do
  let fd ← requireFd
  os (.sleep rxTimeoutRecoverySettleSeconds)
  os (.tcflush fd)

end SerialLink

/-- What the two loggers differ in: the columns, and how they name
themselves. -/
structure CsvLogger where
  columns : List String
  name : String
  deriving DecidableEq, Repr

namespace CsvLogger

/-- `CsvLogger.close`. -/
def close : HostM Unit := do
  let held ← Script.read Handles.file
  match held with
  | none => pure ()
  | some file => do
    Script.modify fun h => { h with file := none }
    os (.closeFile file)

/-- `CsvLogger.open`. -/
def «open» (l : CsvLogger) (path : String) : HostM Unit := do
  let held ← Script.read Handles.file
  if held.isSome then Script.raise ⟨.runtimeError, l.name ++ " is already open"⟩
  else do
    os (.makeParents path)
    let create : HostM Unit := do
      let file ← os (.openFile path)
      Script.modify fun h => { h with file := some file }
      os (.writeRow file l.columns)
      os (.flush file)
    -- the attribute may be set or not: `close` looks
    create.handle fun e => do
      close
      Script.raise e

/-- `CsvLogger.write`, of the row a sample or a result is. -/
def write (l : CsvLogger) (row : List String) : HostM Unit := do
  let held ← Script.read Handles.file
  match held with
  | none => Script.raise ⟨.runtimeError, l.name ++ " is not open"⟩
  | some file => do
    os (.writeRow file row)
    os (.flush file)

end CsvLogger

/-- `with SerialLink(port) as link:`. -/
def withLink {α : Type} (t : Termios) (port : String) (body : HostM α) : HostM α :=
  Script.bracket (SerialLink.open t port) SerialLink.close body

/-- `with CsvLogger(path) as csv_logger:`. -/
def withLogger {α : Type} (l : CsvLogger) (path : String) (body : HostM α) : HostM α :=
  Script.bracket (l.open path) CsvLogger.close body

/-! ## What is open -/

/-- What can be open: a descriptor or a file. -/
inductive Handle where
  | port (fd : ℕ)
  | file (file : ℕ)
  deriving DecidableEq, Repr

/-- What a call has opened. -/
def opened? : OsEntry → Option Handle
  | ⟨.openPort _, .ok fd⟩ => some (.port fd)
  | ⟨.openFile _, .ok file⟩ => some (.file file)
  | ⟨.createFile _, .ok file⟩ => some (.file file)
  | _ => none

/-- What a call closes, whether or not it raises. -/
def OsCall.closes? : OsCall → Option Handle
  | .closePort fd => some (.port fd)
  | .closeFile file => some (.file file)
  | _ => none

/-- What a call works on. -/
def OsCall.uses? : OsCall → Option Handle
  | .tcgetattr fd => some (.port fd)
  | .tcsetattr fd _ => some (.port fd)
  | .closePort fd => some (.port fd)
  | .writePort fd _ => some (.port fd)
  | .tcdrain fd => some (.port fd)
  | .receive fd _ _ => some (.port fd)
  | .tcflush fd => some (.port fd)
  | .writeRow file _ => some (.file file)
  | .flush file => some (.file file)
  | .closeFile file => some (.file file)
  | .writeText file _ => some (.file file)
  | _ => none

/-- How often a handle was opened. -/
def opens (log : OsLog) (h : Handle) : ℕ := log.countP fun e => opened? e = some h

/-- How often it was closed. -/
def closes (log : OsLog) (h : Handle) : ℕ := log.countP fun e => e.call.closes? = some h

/-- **Every call works on what is open**: on a handle that was opened more
often than it was closed. -/
def Disciplined (log : OsLog) : Prop :=
  ∀ before e after, log = before ++ e :: after → ∀ h, e.call.uses? = some h →
    closes before h < opens before h

/-- What the two attributes hold. -/
def Handles.held (s : Handles) : List Handle :=
  s.fd.toList.map .port ++ s.file.toList.map .file

/-- **The handles of a list are open, and no others.** -/
structure Owned (held : List Handle) (log : OsLog) : Prop where
  balance : ∀ h, opens log h = closes log h + held.count h
  disciplined : Disciplined log

section

variable {held : List Handle} {log : OsLog} {c : OsCall} {o : Except Raised c.Reply} {h : Handle}

/-- An entry that opens a handle counts it once more. -/
theorem opens_append (e : OsEntry) (h : Handle) :
    opens (log ++ [e]) h = opens log h + if opened? e = some h then 1 else 0 := by
  by_cases he : opened? e = some h <;> simp [opens, he]

/-- A call that closes a handle counts one more for it, and any other call
leaves its count. -/
theorem closes_append (e : OsEntry) (h : Handle) :
    closes (log ++ [e]) h = closes log h + if e.call.closes? = some h then 1 else 0 := by
  by_cases he : e.call.closes? = some h <;> simp [closes, he]

/-- An empty log has no call on what is not open. -/
theorem disciplined_nil : Disciplined [] := by
  intro before e after hlog
  simp at hlog

/-- A call on an open handle, or on none, keeps the discipline. -/
theorem Disciplined.append {e : OsEntry} (hlog : Disciplined log)
    (he : ∀ h, e.call.uses? = some h → closes log h < opens log h) : Disciplined (log ++ [e]) := by
  intro before e' after hsplit
  rcases List.eq_nil_or_concat after with rfl | ⟨after, last, rfl⟩
  · obtain ⟨rfl, hlast⟩ := List.append_inj' hsplit rfl
    obtain rfl := List.singleton_inj.mp hlast
    exact he
  · have hbefore : log ++ [e] = (before ++ e' :: after) ++ [last] := by
      rw [hsplit, List.concat_eq_append, List.append_assoc, List.cons_append]
    obtain ⟨rfl, -⟩ := List.append_inj' hbefore rfl
    exact hlog before e' after rfl

/-- With an empty log nothing is open, and nothing was used that was not. -/
theorem owned_nil : Owned [] [] := ⟨fun _ => rfl, disciplined_nil⟩

/-- What is held is open, so that it may be used. -/
theorem Owned.isOpen (hl : Owned held log) (hh : h ∈ held) : closes log h < opens log h := by
  have hcount := List.count_pos_iff.mpr hh
  have hbalance := hl.balance h
  omega

/-- A call that opens nothing and closes nothing may use what is held, and
leaves it held. -/
theorem Owned.use (hl : Owned held log) (huses : ∀ h, c.uses? = some h → h ∈ held)
    (hopens : opened? ⟨c, o⟩ = none) (hcloses : c.closes? = none) :
    Owned held (log ++ [⟨c, o⟩]) := by
  refine ⟨fun h => ?_, hl.disciplined.append fun h hh => hl.isOpen (huses h hh)⟩
  rw [opens_append, closes_append, hopens, hcloses]
  exact hl.balance h

/-- A call that opens a handle adds it to what is held. -/
theorem Owned.acquire (hl : Owned held log) (huses : c.uses? = none)
    (hopens : opened? ⟨c, o⟩ = some h) (hcloses : c.closes? = none) :
    Owned (h :: held) (log ++ [⟨c, o⟩]) := by
  refine ⟨fun h' => ?_, hl.disciplined.append fun h' hh => ?_⟩
  · have hbalance := hl.balance h'
    rw [opens_append, closes_append, hopens, hcloses, List.count_cons]
    by_cases hh : h = h' <;> simp [hh] <;> omega
  · rw [huses] at hh
    cases hh

/-- A call that closes a handle takes it from what is held. -/
theorem Owned.release (hl : Owned (h :: held) log) (huses : c.uses? = some h)
    (hopens : opened? ⟨c, o⟩ = none) (hcloses : c.closes? = some h) :
    Owned held (log ++ [⟨c, o⟩]) := by
  refine ⟨fun h' => ?_, hl.disciplined.append fun h' hh => ?_⟩
  · have hbalance := hl.balance h'
    rw [List.count_cons] at hbalance
    rw [opens_append, closes_append, hopens, hcloses]
    by_cases hh : h = h' <;> simp [hh] at hbalance ⊢ <;> omega
  · rw [huses] at hh
    exact hl.isOpen (Option.some.inj hh ▸ List.mem_cons_self)

/-- The order of what is held does not matter. -/
theorem Owned.perm {held' : List Handle} (hl : Owned held log) (hp : held.Perm held') :
    Owned held' log :=
  ⟨fun h => (hl.balance h).trans (by rw [hp.count_eq]), hl.disciplined⟩

end

/-! ## Scripts that keep to what is open -/

/-- **The attributes hold what is open**: each handle they name has been
opened once more than it was closed. -/
def Owns (s : Handles) (log : OsLog) : Prop := Owned s.held log

/-- The attributes are `s₀`, and they hold what is open. -/
def At (s₀ s : Handles) (log : OsLog) : Prop := s = s₀ ∧ Owns s log

/-- **A script keeps the attributes true**, returning or raising. -/
def Owning {α : Type} (env : Environment OsCall.Reply Raised) (p : HostM α) : Prop :=
  Script.Meets env Owns p (fun _ => Owns) fun _ => Owns

/-- **A script leaves open what it found open**, and nothing else. -/
def Tidy {α : Type} (env : Environment OsCall.Reply Raised) (p : HostM α) : Prop :=
  ∀ s₀, Script.Meets env (At s₀) p (fun _ => At s₀) fun _ => At s₀

section

variable {env : Environment OsCall.Reply Raised} {α β : Type} {s₀ : Handles} {c : OsCall}
variable {p : HostM α}

/-- A tidy script keeps the attributes true, from whatever they hold. -/
theorem Tidy.owning (h : Tidy env p) : Owning env p := by
  intro s log hs
  refine (h s s log ⟨rfl, hs⟩).mono fun r log' hr => ⟨fun a ha => ?_, fun e he => ?_⟩
  · exact (hr.1 a ha).2
  · exact (hr.2 e he).2

/-- A return makes no call, and leaves the attributes alone. -/
theorem tidy_ret (a : α) : Tidy env (pure a : HostM α) := fun _ => Script.meets_ret fun _ _ h => h

/-- Raising makes no call either: what was held is still held where it is
caught. -/
theorem tidy_raise (e : Raised) : Tidy env (Script.raise e : HostM α) :=
  fun _ => Script.meets_raise fun _ _ h => h

/-- What is computed as a value or an exception makes no call, and opens
nothing. -/
theorem tidy_ofExcept (o : Except Raised α) : Tidy env (Script.ofExcept o) :=
  fun _ => Script.meets_ofExcept (fun _ _ _ _ h => h) fun _ _ _ _ h => h

/-- **Tidy scripts in sequence** are tidy, whichever of them raises. -/
theorem Tidy.bind {f : α → HostM β} (hp : Tidy env p) (hf : ∀ a, Tidy env (f a)) :
    Tidy env (p >>= f) := fun s₀ => (hp s₀).bind fun a => hf a s₀

/-- A tidy script with a tidy handler is tidy, for the handler finds the
attributes as they were. -/
theorem Tidy.handle {h : Raised → HostM α} (hp : Tidy env p) (hh : ∀ e, Tidy env (h e)) :
    Tidy env (p.handle h) := fun s₀ => (hp s₀).handle fun e => hh e s₀

/-- So is one of two tidy scripts, whichever the condition picks. -/
theorem Tidy.ite {b : Prop} [Decidable b] {q : HostM α} (hp : Tidy env p) (hq : Tidy env q) :
    Tidy env (if b then p else q) := by
  split
  · exact hp
  · exact hq

/-- And a loop is, whose body is tidy for every element. -/
theorem tidy_forEach {body : β → α → HostM β} (h : ∀ b a, Tidy env (body b a)) (xs : List α)
    (b : β) : Tidy env (Script.forEach body xs b) := fun s₀ =>
  Script.meets_forEach (I := fun _ _ => At s₀) (fun x _ b => h b x s₀) xs b

/-- A call on what is open, or on nothing. -/
theorem meets_use (huses : ∀ h, c.uses? = some h → h ∈ s₀.held)
    (hopens : ∀ o, opened? ⟨c, o⟩ = none) (hcloses : c.closes? = none) :
    Script.Meets env (At s₀) (os c) (fun _ => At s₀) fun _ => At s₀ := by
  refine Script.meets_call ?_ ?_
  · rintro s log r ⟨rfl, hs⟩ -
    exact ⟨rfl, hs.use huses (hopens _) hcloses⟩
  · rintro s log e ⟨rfl, hs⟩ -
    exact ⟨rfl, hs.use huses (hopens _) hcloses⟩

/-- A call that uses, opens and closes nothing is tidy, however it ends. -/
theorem tidy_os (huses : c.uses? = none) (hopens : ∀ o, opened? ⟨c, o⟩ = none)
    (hcloses : c.closes? = none) : Tidy env (os c) := by
  refine fun s₀ => meets_use (fun h hh => ?_) hopens hcloses
  rw [huses] at hh
  cases hh

/-- Printing opens nothing: the terminal is no handle of the script. -/
theorem tidy_print (line : String) : Tidy env (print line) := tidy_os rfl (fun _ => rfl) rfl

/-- Printing one line after the other opens nothing, even where one of them
raises. -/
theorem tidy_printAll (lines : List String) : Tidy env (printAll lines) :=
  tidy_forEach (fun _ line => tidy_print line) lines ()

/-- Sleeping opens nothing, even where it is interrupted. -/
theorem tidy_sleep (seconds : ℚ) : Tidy env (os (.sleep seconds)) := tidy_os rfl (fun _ => rfl) rfl

/-- Reading the clock opens nothing, and uses no handle. -/
theorem tidy_monotonic : Tidy env (os .monotonic) := tidy_os rfl (fun _ => rfl) rfl

/-- Asking for the local time opens nothing, and uses no handle. -/
theorem tidy_now : Tidy env (os .now) := tidy_os rfl (fun _ => rfl) rfl

/-- What an attribute says is what it holds, for all that follows. -/
theorem meets_attribute {δ : Type} {f : Handles → δ} {k : δ → HostM α}
    {Q : α → Handles → OsLog → Prop} {E : Raised → Handles → OsLog → Prop}
    (h : Script.Meets env (At s₀) (k (f s₀)) Q E) :
    Script.Meets env (At s₀) (Script.read f >>= k) Q E := by
  refine Script.Meets.bind (B := fun d s log => d = f s₀ ∧ At s₀ s log)
    (Script.meets_read fun s log h => ⟨congrArg f h.1, h⟩) fun d =>
      Script.meets_of_fact fun hd => ?_
  rw [hd]
  exact h

/-- A method that works on the descriptor, where there is one. -/
theorem tidy_requireFd {f : ℕ → HostM α}
    (hf : ∀ s₀ fd, s₀.fd = some fd →
      Script.Meets env (At s₀) (f fd) (fun _ => At s₀) fun _ => At s₀) :
    Tidy env (SerialLink.requireFd >>= f) := by
  intro s₀
  refine Script.Meets.bind (B := fun fd s log => s₀.fd = some fd ∧ At s₀ s log) ?_ fun fd => ?_
  · unfold SerialLink.requireFd
    refine meets_attribute (f := Handles.fd) ?_
    rcases hfd : s₀.fd with _ | fd
    · exact Script.meets_raise fun s log h => h
    · exact Script.meets_ret fun s log h => ⟨rfl, h⟩
  · rintro s log ⟨hfd, hs⟩
    exact hf s₀ fd hfd s log hs

/-- A descriptor that stands in `_fd` is one that is held. -/
theorem port_mem_held {fd : ℕ} (h : s₀.fd = some fd) : Handle.port fd ∈ s₀.held := by
  simp [Handles.held, h]

/-- A file that stands in `_file` is one that is held. -/
theorem file_mem_held {file : ℕ} (h : s₀.file = some file) : Handle.file file ∈ s₀.held := by
  simp [Handles.held, h]

/-- A call on the descriptor that is held leaves it held, whether it returns
or raises. -/
theorem meets_port {fd : ℕ} (hfd : s₀.fd = some fd) (huses : c.uses? = some (.port fd))
    (hopens : ∀ o, opened? ⟨c, o⟩ = none) (hcloses : c.closes? = none) :
    Script.Meets env (At s₀) (os c) (fun _ => At s₀) fun _ => At s₀ := by
  refine meets_use (fun h hh => ?_) hopens hcloses
  rw [huses] at hh
  exact Option.some.inj hh ▸ port_mem_held hfd

/-- A call on the file that is held does the same. -/
theorem meets_file {file : ℕ} (hfile : s₀.file = some file) (huses : c.uses? = some (.file file))
    (hopens : ∀ o, opened? ⟨c, o⟩ = none) (hcloses : c.closes? = none) :
    Script.Meets env (At s₀) (os c) (fun _ => At s₀) fun _ => At s₀ := by
  refine meets_use (fun h hh => ?_) hopens hcloses
  rw [huses] at hh
  exact Option.some.inj hh ▸ file_mem_held hfile

/-- **`SerialLink.write`** uses the descriptor that is held, for the write and
for the drain. -/
theorem tidy_write (data : List Byte) : Tidy env (SerialLink.write data) := by
  refine .ite (tidy_ret _) (tidy_requireFd fun s₀ fd hfd => ?_)
  refine Script.Meets.bind (meets_port hfd rfl (fun _ => rfl) rfl) fun written => ?_
  split
  · exact tidy_raise _ s₀
  · exact meets_port hfd rfl (fun _ => rfl) rfl

/-- **`SerialLink.read_exact`** does too, if it comes to reading at all. -/
theorem tidy_readExact (size : ℤ) (timeoutS : ℚ) : Tidy env (SerialLink.readExact size timeoutS) := by
  refine .ite (tidy_raise _) (.ite (tidy_raise _) (.ite (tidy_ret _) ?_))
  refine tidy_requireFd fun s₀ fd hfd => ?_
  exact Script.Meets.bind (meets_port hfd rfl (fun _ => rfl) rfl) fun bytes => tidy_ret _ s₀

/-- The recovery after a time-out uses the descriptor that is held, and leaves
it open. -/
theorem tidy_recover : Tidy env SerialLink.recoverRxAfterTimeout :=
  tidy_requireFd fun s₀ _ hfd => Script.Meets.bind (tidy_sleep _ s₀) fun _ =>
    meets_port hfd rfl (fun _ => rfl) rfl

/-- Writing a row uses the file that is held, and flushes it. -/
theorem tidy_writeRow (l : CsvLogger) (row : List String) : Tidy env (l.write row) := by
  intro s₀
  unfold CsvLogger.write
  refine meets_attribute (f := Handles.file) ?_
  rcases hfile : s₀.file with _ | file
  · exact tidy_raise _ s₀
  · have hrow : Script.Meets env (At s₀) (os (.writeRow file row)) (fun _ => At s₀) fun _ => At s₀ :=
      meets_file hfile rfl (fun _ => rfl) rfl
    have hflush : Script.Meets env (At s₀) (os (.flush file)) (fun _ => At s₀) fun _ => At s₀ :=
      meets_file hfile rfl (fun _ => rfl) rfl
    exact hrow.bind fun _ => hflush

/-! ### Opening and closing -/

/-- **What is closed is let go of first**, so that it is not closed twice
where the call raises. -/
theorem meets_closeLink : Script.Meets env (At s₀) SerialLink.close
    (fun _ => At { s₀ with fd := none }) fun _ => At { s₀ with fd := none } := by
  unfold SerialLink.close
  refine meets_attribute (f := Handles.fd) ?_
  rcases hfd : s₀.fd with _ | fd
  · refine Script.meets_ret fun s log h => ?_
    have hsame : ({ s₀ with fd := none } : Handles) = s₀ := by rw [← hfd]
    rw [hsame]
    exact h
  · refine Script.Meets.bind (B := fun _ s log => s = { s₀ with fd := none } ∧
      Owned (.port fd :: s₀.file.toList.map .file) log)
      (Script.meets_modify fun s log h => ?_) (fun _ => Script.meets_call ?_ ?_)
    · obtain ⟨rfl, h⟩ := h
      refine ⟨rfl, ?_⟩
      simpa [Owns, Handles.held, hfd] using h
    · rintro s log r ⟨rfl, h⟩ -
      exact ⟨rfl, by simpa [Owns, Handles.held] using h.release rfl rfl rfl⟩
    · rintro s log e ⟨rfl, h⟩ -
      exact ⟨rfl, by simpa [Owns, Handles.held] using h.release rfl rfl rfl⟩

/-- **`CsvLogger.close`** leaves no file in the attribute, closed or never
opened, also where the closing raises. -/
theorem meets_closeFile : Script.Meets env (At s₀) CsvLogger.close
    (fun _ => At { s₀ with file := none }) fun _ => At { s₀ with file := none } := by
  unfold CsvLogger.close
  refine meets_attribute (f := Handles.file) ?_
  rcases hfile : s₀.file with _ | file
  · refine Script.meets_ret fun s log h => ?_
    have hsame : ({ s₀ with file := none } : Handles) = s₀ := by rw [← hfile]
    rw [hsame]
    exact h
  · refine Script.Meets.bind (B := fun _ s log => s = { s₀ with file := none } ∧
      Owned (.file file :: s₀.fd.toList.map .port) log)
      (Script.meets_modify fun s log h => ?_) (fun _ => Script.meets_call ?_ ?_)
    · obtain ⟨rfl, h⟩ := h
      refine ⟨rfl, Owned.perm h ?_⟩
      simp [Handles.held, hfile]
    · rintro s log r ⟨rfl, h⟩ -
      exact ⟨rfl, by simpa [Owns, Handles.held] using h.release rfl rfl rfl⟩
    · rintro s log e ⟨rfl, h⟩ -
      exact ⟨rfl, by simpa [Owns, Handles.held] using h.release rfl rfl rfl⟩

/-- A link that had no descriptor has none again. -/
theorem meets_closeLink_of {fd : ℕ} (h : s₀.fd = none) :
    Script.Meets env (At { s₀ with fd := some fd }) SerialLink.close (fun _ => At s₀)
      fun _ => At s₀ := by
  have hclose := @meets_closeLink env { s₀ with fd := some fd }
  have hsame : ({ ({ s₀ with fd := some fd } : Handles) with fd := none } : Handles) = s₀ := by
    rw [← h]
  rwa [hsame] at hclose

/-- A logger that had no file has none again. -/
theorem meets_closeFile_of {file : ℕ} (h : s₀.file = none) :
    Script.Meets env (At { s₀ with file := some file }) CsvLogger.close (fun _ => At s₀)
      fun _ => At s₀ := by
  have hclose := @meets_closeFile env { s₀ with file := some file }
  have hsame : ({ ({ s₀ with file := some file } : Handles) with file := none } : Handles) = s₀ := by
    rw [← h]
  rwa [hsame] at hclose

/-- **A port that cannot be configured is closed again.** -/
theorem meets_openLink {t : Termios} {port : String} : Script.Meets env (At s₀)
    (SerialLink.open t port) (fun _ s log => ∃ fd, s₀.fd = none ∧ At { s₀ with fd := some fd } s log)
    fun _ => At s₀ := by
  unfold SerialLink.open
  refine meets_attribute (f := Handles.fd) ?_
  rcases hfd : s₀.fd with _ | fd
  swap
  · exact Script.meets_raise fun s log h => h
  rw [Option.isSome_none, if_neg Bool.false_ne_true]
  -- the descriptor is in no attribute yet
  have hopen : Script.Meets env (At s₀) (os (.openPort port))
      (fun fd s log => s = s₀ ∧ Owned (.port fd :: s₀.held) log) fun _ => At s₀ := by
    refine Script.meets_call ?_ ?_
    · rintro s log fd ⟨rfl, h⟩ -
      exact ⟨rfl, Owned.acquire h rfl rfl rfl⟩
    · rintro s log e ⟨rfl, h⟩ -
      exact ⟨rfl, Owned.use h (fun _ hh => nomatch hh) rfl rfl⟩
  refine hopen.bind fun fd => ?_
  have huse : ∀ c : OsCall, c.uses? = some (.port fd) → (∀ o, opened? ⟨c, o⟩ = none) →
      c.closes? = none → Script.Meets env (fun s log => s = s₀ ∧ Owned (.port fd :: s₀.held) log)
        (os c) (fun _ s log => s = s₀ ∧ Owned (.port fd :: s₀.held) log)
        fun _ s log => s = s₀ ∧ Owned (.port fd :: s₀.held) log := by
    intro c huses hopens hcloses
    have hheld : ∀ h, c.uses? = some h → h ∈ Handle.port fd :: s₀.held := by
      intro h hh
      rw [huses] at hh
      exact Option.some.inj hh ▸ List.mem_cons_self
    refine Script.meets_call ?_ ?_
    · rintro s log r ⟨rfl, h⟩ -
      exact ⟨rfl, h.use hheld (hopens _) hcloses⟩
    · rintro s log e ⟨rfl, h⟩ -
      exact ⟨rfl, h.use hheld (hopens _) hcloses⟩
  have hconfigure : Script.Meets env (fun s log => s = s₀ ∧ Owned (.port fd :: s₀.held) log)
      (os (.tcgetattr fd) >>= fun attributes =>
        os (.tcsetattr fd (SerialLink.portAttributes t attributes)))
      (fun _ s log => s = s₀ ∧ Owned (.port fd :: s₀.held) log)
      fun _ s log => s = s₀ ∧ Owned (.port fd :: s₀.held) log :=
    (huse (.tcgetattr fd) rfl (fun _ => rfl) rfl).bind fun attributes =>
      huse (.tcsetattr fd (SerialLink.portAttributes t attributes)) rfl (fun _ => rfl) rfl
  refine Script.Meets.bind (hconfigure.handle fun e => ?_) fun _ => Script.meets_modify ?_
  · refine Script.Meets.bind (B := fun _ => At s₀) (Script.meets_call ?_ ?_)
      fun _ => Script.meets_raise fun s log h => h
    · rintro s log r ⟨rfl, h⟩ -
      exact ⟨rfl, h.release rfl rfl rfl⟩
    · rintro s log e ⟨rfl, h⟩ -
      exact ⟨rfl, h.release rfl rfl rfl⟩
  · rintro s log ⟨rfl, h⟩
    exact ⟨fd, rfl, rfl, by simpa [Owns, Handles.held, hfd] using h⟩

/-- **A file that cannot be begun is closed again.** -/
theorem meets_openFile {l : CsvLogger} {path : String} : Script.Meets env (At s₀)
    (l.open path) (fun _ s log => ∃ file, s₀.file = none ∧ At { s₀ with file := some file } s log)
    fun _ => At s₀ := by
  unfold CsvLogger.open
  refine meets_attribute (f := Handles.file) ?_
  rcases hfile : s₀.file with _ | file
  swap
  · exact Script.meets_raise fun s log h => h
  rw [Option.isSome_none, if_neg Bool.false_ne_true]
  have hsame : ({ s₀ with file := none } : Handles) = s₀ := by rw [← hfile]
  have hparents : Tidy env (os (.makeParents path)) := tidy_os rfl (fun _ => rfl) rfl
  refine (hparents s₀).bind fun _ => ?_
  have hopen : Script.Meets env (At s₀) (os (.openFile path))
      (fun file s log => s = s₀ ∧ Owned (.file file :: s₀.held) log) fun _ => At s₀ := by
    refine Script.meets_call ?_ ?_
    · rintro s log file ⟨rfl, h⟩ -
      exact ⟨rfl, Owned.acquire h rfl rfl rfl⟩
    · rintro s log e ⟨rfl, h⟩ -
      exact ⟨rfl, Owned.use h (fun _ hh => nomatch hh) rfl rfl⟩
  -- where it raises, the attribute may hold the file or not
  refine Script.Meets.handle (B := fun _ s log => At s₀ s log ∨
    ∃ file, At { s₀ with file := some file } s log) ?_ fun e => ?_
  · refine Script.Meets.bind (hopen.conseq (fun _ _ h => h) (fun _ _ _ h => h)
      fun _ _ _ h => .inl h) fun file => ?_
    refine Script.Meets.bind (B := fun _ => At { s₀ with file := some file })
      (Script.meets_modify ?_) fun _ => ?_
    · rintro s log ⟨rfl, h⟩
      refine ⟨rfl, Owned.perm h ?_⟩
      simpa [Handles.held, hfile] using (List.perm_append_singleton _ _).symm
    · have hwrite : ∀ c : OsCall, c.uses? = some (.file file) →
          (∀ o, opened? ⟨c, o⟩ = none) → c.closes? = none →
          Script.Meets env (At { s₀ with file := some file }) (os c)
            (fun _ => At { s₀ with file := some file }) fun _ s log => At s₀ s log ∨
              ∃ file, At { s₀ with file := some file } s log :=
        fun c huses hopens hcloses => (meets_file rfl huses hopens hcloses).conseq
          (fun _ _ h => h) (fun _ _ _ h => h) fun _ _ _ h => .inr ⟨file, h⟩
      refine (hwrite (.writeRow file l.columns) rfl (fun _ => rfl) rfl).bind fun _ => ?_
      refine (hwrite (.flush file) rfl (fun _ => rfl) rfl).conseq (fun _ _ h => h) ?_
        fun _ _ _ h => h
      exact fun _ _ _ h => ⟨file, rfl, h⟩
  · refine Script.Meets.bind (B := fun _ => At s₀) ?_ fun _ => Script.meets_raise fun s log h => h
    rintro s log (h | ⟨file, h⟩)
    · have hclose := @meets_closeFile env s₀
      rw [hsame] at hclose
      exact hclose s log h
    · exact meets_closeFile_of hfile s log h

/-! ### The statements -/

/-- **`with SerialLink`** leaves no descriptor of its own, however its
body ends. -/
theorem tidy_withLink {t : Termios} {port : String} (hp : Tidy env p) :
    Tidy env (withLink t port p) := by
  intro s₀
  refine meets_openLink.bind fun _ => ?_
  rintro s log ⟨fd, hfd, hs⟩
  exact (hp _).andFinally (fun _ => meets_closeLink_of hfd) (fun _ => meets_closeLink_of hfd)
    s log hs

/-- **`with CsvLogger`** leaves no file of its own, however its body ends. -/
theorem tidy_withLogger {l : CsvLogger} {path : String} (hp : Tidy env p) :
    Tidy env (withLogger l path p) := by
  intro s₀
  refine meets_openFile.bind fun _ => ?_
  rintro s log ⟨file, hfile, hs⟩
  exact (hp _).andFinally (fun _ => meets_closeFile_of hfile) (fun _ => meets_closeFile_of hfile)
    s log hs

end

/-! ## Methods called in any order -/

/-- A method of the link or of the logger. -/
inductive Method where
  | openLink (t : Termios) (port : String)
  | closeLink
  | write (data : List Byte)
  | readExact (size : ℤ) (timeoutS : ℚ)
  | recoverRxAfterTimeout
  | openLogger (path : String)
  | closeLogger
  | writeRow (row : List String)
  deriving DecidableEq, Repr

/-- The method's script, what it returns left out. -/
def Method.script (l : CsvLogger) : Method → HostM Unit
  | .openLink t port => SerialLink.open t port
  | .closeLink => SerialLink.close
  | .write data => SerialLink.write data
  | .readExact size timeoutS => SerialLink.readExact size timeoutS >>= fun _ => pure ()
  | .recoverRxAfterTimeout => SerialLink.recoverRxAfterTimeout
  | .openLogger path => l.open path
  | .closeLogger => CsvLogger.close
  | .writeRow row => l.write row

/-- A caller that goes on whether or not a method raises. -/
def callAll (l : CsvLogger) (methods : List Method) : HostM Unit :=
  Script.forEach (fun _ m => (m.script l).handle fun _ => pure ()) methods ()

section

variable {env : Environment OsCall.Reply Raised}

/-- From every state that is true of the log, so is the state that is
left. -/
theorem owning_of_meets {p : HostM Unit}
    (h : ∀ s₀, Script.Meets env (At s₀) p (fun _ => Owns) fun _ => Owns) : Owning env p :=
  fun s log hs => h s s log ⟨rfl, hs⟩

/-- **Every method keeps the attributes true**, returning or raising, from
whatever they hold. -/
theorem Method.owning (l : CsvLogger) (m : Method) : Owning env (m.script l) := by
  cases m with
  | openLink t port =>
    refine owning_of_meets fun s₀ => meets_openLink.conseq (fun _ _ h => h) ?_ fun _ _ _ h => h.2
    rintro - s log ⟨fd, -, rfl, h⟩
    exact h
  | closeLink =>
    exact owning_of_meets fun s₀ => meets_closeLink.conseq (fun _ _ h => h)
      (fun _ _ _ h => h.2) fun _ _ _ h => h.2
  | write data => exact (tidy_write data).owning
  | readExact size timeoutS => exact ((tidy_readExact size timeoutS).bind fun _ => tidy_ret _).owning
  | recoverRxAfterTimeout => exact tidy_recover.owning
  | openLogger path =>
    refine owning_of_meets fun s₀ => meets_openFile.conseq (fun _ _ h => h) ?_ fun _ _ _ h => h.2
    rintro - s log ⟨file, -, rfl, h⟩
    exact h
  | closeLogger =>
    exact owning_of_meets fun s₀ => meets_closeFile.conseq (fun _ _ h => h)
      (fun _ _ _ h => h.2) fun _ _ _ h => h.2
  | writeRow row => exact (tidy_writeRow l row).owning

/-- So does any sequence of methods, whether or not they raise. -/
theorem owning_callAll (l : CsvLogger) (methods : List Method) : Owning env (callAll l methods) :=
  Script.meets_forEach (I := fun _ _ => Owns) (fun m _ _ => (m.owning l).handle fun _ =>
    Script.meets_ret fun _ _ h => h) methods ()

end

/-- **Whatever methods are called, and however the system answers**: every
descriptor and every file is closed as often as it is opened, the one that an
attribute holds once less, and no call is made on one that is not open. -/
theorem handles_never_leak {env : Environment OsCall.Reply Raised} {l : CsvLogger}
    {methods : List Method} {s : Handles} {o : Except Raised Unit} {log : OsLog}
    (h : Tree.Runs env (callAll l methods ⟨none, none⟩) [] (o, s) log) :
    (∀ fd, opens log (.port fd) = closes log (.port fd) + if s.fd = some fd then 1 else 0) ∧
      (∀ file, opens log (.file file) =
        closes log (.file file) + if s.file = some file then 1 else 0) ∧ Disciplined log := by
  have hstart : Owns ⟨none, none⟩ [] := owned_nil
  have hends := (owning_callAll l methods).run hstart h
  have howns : Owns s log := by
    rcases o with e | ⟨⟩
    · exact hends.2 e rfl
    · exact hends.1 () rfl
  refine ⟨fun fd => ?_, fun file => ?_, howns.disciplined⟩
  · rw [howns.balance]
    rcases s with ⟨_ | fd', _ | file⟩ <;> simp [Handles.held, List.count_cons]
  · rw [howns.balance]
    rcases s with ⟨_ | fd, _ | file'⟩ <;> simp [Handles.held, List.count_cons]

/-- The bytes that have been received. -/
def receivedCount (log : OsLog) : ℕ :=
  (log.map fun e => match e with
    | ⟨.receive _ size _, .ok _⟩ => size
    | _ => 0).sum

/-- A system that fails no call, and a port with these bytes in it. -/
def attached (bytes : List Byte) (log : OsLog) : (c : OsCall) → Except Raised c.Reply
  | .openPort _ => .ok 3
  | .tcgetattr _ => .ok ⟨0, 0, 0, 0, 0, 0, 0, 0⟩
  | .tcsetattr _ _ => .ok ()
  | .closePort _ => .ok ()
  | .writePort _ data => .ok data.length
  | .tcdrain _ => .ok ()
  | .receive _ size _ =>
    let unread := bytes.drop (receivedCount log)
    if h : size ≤ unread.length then .ok ⟨unread.take size, List.length_take_of_le h⟩
    else .error ⟨.serialTimeoutError, "timed out"⟩
  | .tcflush _ => .ok ()
  | .sleep _ => .ok ()
  | .monotonic => .ok 0
  | .now => .ok ⟨⟨2026, 1, 1, 0, 0, 0⟩, "2026-01-01T00:00:00+00:00"⟩
  | .makeParents _ => .ok ()
  | .openFile _ => .ok 4
  | .writeRow _ _ => .ok ()
  | .flush _ => .ok ()
  | .closeFile _ => .ok ()
  | .print _ => .ok ()
  | .printError _ => .ok ()
  | .isFile _ => .ok true
  | .exists _ => .ok false
  | .isDir _ => .ok true
  | .run _ => .ok ⟨0, "", ""⟩
  | .sha256File _ => .ok ""
  | .createFile _ => .ok 5
  | .writeText _ _ => .ok ()

/-- That system, as an environment. -/
def attachedEnv (bytes : List Byte) : Environment OsCall.Reply Raised :=
  fun log c o => o = attached bytes log c

/-- What a script comes to there, from a fresh log. -/
def ranOn {α : Type} (bytes : List Byte) (p : HostM α) : (Except Raised α × Handles) × OsLog :=
  (p ⟨none, none⟩).exec (attached bytes) []

/-- What the system with those bytes computes is one of the runs of the
script. -/
theorem ranOn_runs {α : Type} (bytes : List Byte) (p : HostM α) :
    Tree.Runs (attachedEnv bytes) (p ⟨none, none⟩) []
      ((ranOn bytes p).1.1, (ranOn bytes p).1.2) (ranOn bytes p).2 :=
  Tree.runs_exec fun _ _ => rfl

/-- A port that is opened twice, written to, read in vain, closed, and
written to again; and a file that is opened. -/
def session : HostM Unit :=
  callAll ⟨["timestamp"], "CSV logger"⟩
    [.openLink ⟨0, 0, 0, 0⟩ "/dev/ttyACM0", .openLink ⟨0, 0, 0, 0⟩ "/dev/ttyACM0", .write [0x55#8],
      .readExact 2 1, .closeLink, .write [0x55#8], .openLogger "measurements/comm_health.csv"]

/-- The port is closed once, and the file is still open. -/
theorem handles_never_leak_session :
    closes (ranOn [] session).2 (.port 3) = 1 ∧ closes (ranOn [] session).2 (.file 4) = 0 := by
  have h := handles_never_leak (ranOn_runs [] session)
  have hport := h.1 3
  have hfile := h.2.1 4
  have hopens : opens (ranOn [] session).2 (.port 3) = 1 ∧
      opens (ranOn [] session).2 (.file 4) = 1 := by decide +kernel
  have hstate : (ranOn [] session).1.2 = ⟨none, some 4⟩ := by decide +kernel
  rw [hstate, hopens.1, if_neg (by simp)] at hport
  rw [hstate, hopens.2, if_pos rfl] at hfile
  omega

end SentryCell.Host
