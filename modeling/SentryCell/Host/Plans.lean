import SentryCell.Host.Release
/-!
# What the commands say and hear

`transcript` is what a log shows of the wire and of the table: the data
that was written, the bytes that were received and the rows. Each command
has a plan, one step for each request, and follows it: a request is written
only once the one before it has been answered as it must be, and where the
command ends with exit code 0 the whole plan was kept. That is so whatever
the board answers and whichever call fails.
-/

namespace SentryCell.Host.Supervisor

open Calls Script

variable {env : Environment OsCall.Reply Raised} {α : Type}

/-! ## The transcript -/

/-- A line of a transcript. -/
inductive Line where
  | sent (data : List Byte)
  | got (bytes : List Byte)
  | row (cells : List String)
  deriving DecidableEq, Repr

/-- What a call shows. Data and rows count as written even where the call
raises. -/
def line : OsEntry → List Line
  | ⟨.writePort _ data, _⟩ => [.sent data]
  | ⟨.receive _ _ _, .ok bytes⟩ => [.got bytes.1]
  | ⟨.writeRow _ cells, _⟩ => [.row cells]
  | _ => []

/-- What a log shows. -/
def transcript (log : OsLog) : List Line := log.flatMap line

/-- The cells of a row. -/
def Line.cells? : Line → Option (List String)
  | .row cells => some cells
  | _ => none

/-- The table that a transcript shows. -/
def tableOf (lines : List Line) : List (List String) := lines.filterMap Line.cells?

/-- A response, as `read_protocol_frame` reads it. -/
def heard (response : List Byte) : List Line :=
  [.got (response.take 5), .got (response.drop 5)]

/-- What is received after a request that is not answered as it must be. -/
def received (chunks : List (List Byte)) : List Line := chunks.map .got

/-! ## Steps -/

/-- **A request and its response**, of those that are accepted. -/
def exchange (request : List Byte) (accepts : List Byte → Prop) : Step Line where
  complete part := ∃ response, accepts response ∧ part = .sent request :: heard response
  begun part := ∃ chunks, part = .sent request :: received chunks

/-- **A response that tells a status**: a frame with the sequence of the
request, that the decoder reads the status from. -/
def Answered (decoder : Frame → Except PyError α) (sequence : Byte) (status : α)
    (response : List Byte) : Prop :=
  ∃ type payload, payload.length ≤ 8 ∧ response = frameBytes type sequence payload ∧
    decoder ⟨type.toNat, sequence.toNat, payload⟩ = .ok status

/-- A request for a status. -/
def statusExchange (type sequence : Byte) (decoder : Frame → Except PyError α) : Step Line :=
  exchange (frameBytes type sequence []) fun response =>
    ∃ status, Answered decoder sequence status response

/-- A request with one response that is accepted: of another type, with the
same sequence and payload. -/
def roundTripExchange (type expected sequence : Byte) (payload : List Byte) : Step Line :=
  exchange (frameBytes type sequence payload) fun response =>
    response = frameBytes expected sequence payload

/-! ## Silent calls -/

/-- Printing is not shown: a transcript has what goes to the board and to the
table. -/
theorem silent_print (text : String) : Silent env line (print text) := silent_call fun _ => rfl

/-- Lines that are printed one after the other are not shown either. -/
theorem silent_printAll (lines : List String) : Silent env line (printAll lines) :=
  silent_forEach (fun _ text => silent_print text) lines ()

/-- Sleeping is not shown, for it tells the board nothing. -/
theorem silent_sleep (seconds : ℚ) : Silent env line (os (.sleep seconds)) :=
  silent_call fun _ => rfl

/-- Asking for the local time is not shown. -/
theorem silent_now : Silent env line (os .now) := silent_call fun _ => rfl

/-- Reading the clock is not shown. -/
theorem silent_monotonic : Silent env line (os .monotonic) := silent_call fun _ => rfl

/-- What is computed in between makes no call, so that there is nothing
to show. -/
theorem silent_ofExcept (o : Except Raised α) :
    Silent env line (Script.ofExcept o : HostM α) := emits_ofExcept (fun _ _ => rfl) fun _ _ => rfl

/-- Looking up the descriptor shows nothing, whether there is one or it
raises. -/
theorem silent_requireFd : Silent env line SerialLink.requireFd := by
  refine (silent_read Handles.fd).bind ?_
  intro held
  rcases held with _ | fd
  · exact silent_raise _
  · exact silent_ret fd

/-- **Opening the port** shows nothing, whether or not it can be configured. -/
theorem silent_openLink (t : Termios) (port : String) : Silent env line (SerialLink.open t port) := by
  refine (silent_read Handles.fd).bind ?_
  intro held
  refine .ite (silent_raise _) ?_
  refine (silent_call fun _ => rfl).bind ?_
  intro fd
  refine Silent.bind (Silent.handle ?_ ?_) fun _ => silent_modify _
  · exact (silent_call fun _ => rfl).bind fun _ => silent_call fun _ => rfl
  · intro error
    exact (silent_call fun _ => rfl).bind fun _ => silent_raise error

/-- Closing the port is not shown: it sends nothing. -/
theorem silent_closeLink : Silent env line SerialLink.close := by
  refine (silent_read Handles.fd).bind ?_
  intro held
  rcases held with _ | fd
  · exact silent_ret ()
  · exact (silent_modify _).bind fun _ => silent_call fun _ => rfl

/-- Closing the table is not shown: its rows were, each as it was written. -/
theorem silent_closeFile : Silent env line CsvLogger.close := by
  refine (silent_read Handles.file).bind ?_
  intro held
  rcases held with _ | file
  · exact silent_ret ()
  · exact (silent_modify _).bind fun _ => silent_call fun _ => rfl

/-! ## Requests and responses -/

/-- **Writing** shows the data once, if the port is open, and nothing else. A
write that raises may have been made. -/
theorem emits_write {data : List Byte} (hne : data ≠ []) : Emits env line (SerialLink.write data)
    (fun _ added => added = [.sent data]) fun _ added => added = [] ∨ added = [.sent data] := by
  unfold SerialLink.write
  rw [if_neg hne]
  refine Emits.bind (silent_requireFd.emits (fun _ => rfl) fun _ => .inl rfl)
    (B := fun _ added => added = []) ?_
  rintro fd - rfl
  refine Emits.bind (B := fun _ added => added = [.sent data])
    (emits_call (fun _ => rfl) fun _ => .inr rfl) ?_
  rintro written - rfl
  split
  · exact emits_raise (.inr rfl)
  · exact emits_call (fun _ => rfl) fun _ => .inr rfl

variable {t s : Byte} {payload : List Byte}

/-- A frame that fits is written as its bytes. -/
theorem emits_send (hp : payload.length ≤ 8) :
    Emits env line (send ⟨t.toNat, s.toNat, payload⟩)
      (fun _ added => added = [.sent (frameBytes t s payload)])
      fun _ added => added = [] ∨ added = [.sent (frameBytes t s payload)] := by
  unfold send
  rw [encodeFrame_octets (show payload.length ≤ maxPayload from hp)]
  refine Emits.bind (B := fun data added => data = frameBytes t s payload ∧ added = [])
    (emits_ofExcept ?_ nofun) ?_
  · rintro data ⟨rfl⟩
    exact ⟨rfl, rfl⟩
  · rintro data - ⟨rfl, rfl⟩
    exact emits_write (List.cons_ne_nil _ _)

/-- **Reading** shows the bytes that it returns, or raises and shows none. -/
theorem emits_readExact {size : ℤ} {timeoutS : ℚ} (hsize : 0 < size) :
    Emits env line (SerialLink.readExact size timeoutS)
      (fun bytes added => (bytes.length : ℤ) = size ∧ added = [.got bytes])
      fun _ added => added = [] := by
  unfold SerialLink.readExact
  rw [if_neg (by omega)]
  split
  · exact emits_raise rfl
  rw [if_neg (by omega)]
  refine Emits.bind (silent_requireFd.emits (fun _ => rfl) fun _ => rfl)
    (B := fun _ added => added = []) ?_
  rintro fd - rfl
  refine Emits.bind (B := fun bytes added => added = [.got bytes.1])
    (emits_call (fun _ => rfl) fun _ => rfl) ?_
  rintro bytes - rfl
  refine emits_ret ⟨?_, rfl⟩
  have hlen := bytes.2
  omega

/-- **`read_protocol_frame`** reads a response whole, in two parts, or raises
after at most these two. -/
theorem emits_readProtocolFrame : Emits env line readProtocolFrame
    (fun frame added => ∃ response, decodeFrame response = .ok frame ∧ added = heard response)
    fun _ added => ∃ chunks, added = received chunks := by
  refine Emits.bind ((emits_readExact (by decide)).conseq (fun _ _ h => h) ?_) ?_
  · rintro e - rfl
    exact ⟨[], rfl⟩
  rintro header - ⟨hheader, rfl⟩
  extract_lets payloadLength
  split
  · exact emits_raise ⟨[header], rfl⟩
  refine Emits.bind ((emits_readExact (by omega)).conseq (fun _ _ h => h) ?_) ?_
  · rintro e - rfl
    exact ⟨[header], rfl⟩
  rintro rest - ⟨-, rfl⟩
  have hlen : header.length = 5 := by omega
  rcases hdecode : decodeFrame (header ++ rest) with error | frame
  · exact emits_raise ⟨[header, rest], rfl⟩
  · refine emits_ret ⟨header ++ rest, hdecode, ?_⟩
    rw [heard, List.take_left' hlen, List.drop_left' hlen]
    rfl

/-- What may be left of an exchange that is not completed. -/
def Begun (request : List Byte) (added : List Line) : Prop :=
  added = [] ∨ ∃ chunks, added = .sent request :: received chunks

/-- A request that was written and not answered is an exchange that was
begun. -/
theorem begun_sent {request : List Byte} : Begun request [.sent request] := .inr ⟨[], rfl⟩

/-- A request whose response was read and not accepted is one that was
begun, too. -/
theorem begun_heard {request response : List Byte} :
    Begun request (.sent request :: heard response) :=
  .inr ⟨[response.take 5, response.drop 5], rfl⟩

/-- **A request, and then a response**: what shows nothing of its own is left
to judge the frame that was read. -/
theorem emits_request {f : Frame → HostM α} {Q : α → List Line → Prop} (hp : payload.length ≤ 8)
    (hf : ∀ frame response, decodeFrame response = .ok frame →
      Emits env line (f frame)
        (fun a added => Q a (.sent (frameBytes t s payload) :: heard response ++ added))
        fun _ added => added = []) :
    Emits env line (send ⟨t.toNat, s.toNat, payload⟩ >>= fun _ => readProtocolFrame >>= f)
      Q fun _ => Begun (frameBytes t s payload) := by
  refine Emits.bind ((emits_send hp).conseq (fun _ _ h => h) ?_) ?_
  · rintro e added (rfl | rfl)
    · exact .inl rfl
    · exact begun_sent
  rintro - - rfl
  refine Emits.bind (emits_readProtocolFrame.conseq (fun _ _ h => h) ?_) ?_
  · rintro e - ⟨chunks, rfl⟩
    exact .inr ⟨chunks, rfl⟩
  rintro frame - ⟨response, hdecode, rfl⟩
  refine (hf frame response hdecode).conseq (fun _ _ h => h) ?_
  rintro e - rfl
  exact begun_heard

/-- **A request for a status** returns only what the decoder accepts of a
frame with the sequence that was asked with. -/
theorem emits_requestStatus (t s : Byte) (statusName : String)
    (decoder : Frame → Except PyError α) :
    Emits env line (requestStatus t.toNat s.toNat statusName decoder)
      (fun status added => ∃ response, Answered decoder s status response ∧
        added = .sent (frameBytes t s []) :: heard response)
      fun _ => Begun (frameBytes t s []) := by
  refine emits_request (Nat.zero_le 8) fun frame response hdecode => ?_
  split
  · exact emits_raise rfl
  rename_i hsequence
  refine emits_ofExcept (fun status hstatus => ?_) fun _ _ => rfl
  obtain ⟨type, sequence, payload, hp, rfl, rfl⟩ := decodeFrame_eq_ok_iff.mp hdecode
  -- the sequence is the one that was asked with
  have hs : sequence = s := by
    have heq : ((sequence.toNat : ℤ)) = s.toNat := not_not.mp hsequence
    exact BitVec.eq_of_toNat_eq (by omega)
  subst hs
  refine ⟨_, ⟨type, payload, hp, rfl, ?_⟩, by rw [List.append_nil]⟩
  rcases hd : decoder ⟨type.toNat, sequence.toNat, payload⟩ with error | status'
  · rw [hd] at hstatus
    cases hstatus
  · rw [hd] at hstatus
    cases hstatus
    rfl

/-- **A request with one response** returns only if the frame read has the
expected type, and the sequence and the payload of the request. -/
theorem emits_roundTrip (t expected s : Byte) (hp : payload.length ≤ 8) :
    Emits env line (roundTrip ⟨t.toNat, s.toNat, payload⟩ expected.toNat)
      (fun _ added => added = .sent (frameBytes t s payload) ::
        heard (frameBytes expected s payload))
      fun _ => Begun (frameBytes t s payload) := by
  refine emits_request hp fun frame response hdecode => ?_
  obtain ⟨type, sequence, payload', -, rfl, rfl⟩ := decodeFrame_eq_ok_iff.mp hdecode
  unfold requireResponse
  split
  · exact emits_raise rfl
  rename_i htype
  split
  · exact emits_raise rfl
  rename_i hsequence
  split
  · exact emits_raise rfl
  rename_i hpayload
  have ht : type = expected := by
    have heq : ((type.toNat : ℤ)) = expected.toNat := not_not.mp htype
    exact BitVec.eq_of_toNat_eq (by omega)
  have hs : sequence = s := by
    have heq : ((sequence.toNat : ℤ)) = s.toNat := not_not.mp hsequence
    exact BitVec.eq_of_toNat_eq (by omega)
  have hpayload' : payload' = payload := not_not.mp hpayload
  refine emits_ret ?_
  rw [List.append_nil, ht, hs, hpayload']

/-- A request for a status follows the plan of one exchange. -/
theorem follows_requestStatus (t s : Byte) (statusName : String)
    (decoder : Frame → Except PyError α) :
    Follows env line [statusExchange t s decoder]
      (requestStatus t.toNat s.toNat statusName decoder) := by
  refine follows_step ((emits_requestStatus t s statusName decoder).conseq ?_ ?_)
  · rintro status - ⟨response, hanswered, rfl⟩
    exact ⟨response, ⟨status, hanswered⟩, rfl⟩
  · rintro e added (rfl | hadded)
    · exact .inl rfl
    · exact .inr (.inl hadded)

/-- A request with one response follows the plan of one exchange as well. -/
theorem follows_roundTrip (t expected s : Byte) (hp : payload.length ≤ 8) :
    Follows env line [roundTripExchange t expected s payload]
      (roundTrip ⟨t.toNat, s.toNat, payload⟩ expected.toNat) := by
  refine follows_step ((emits_roundTrip t expected s hp).conseq ?_ ?_)
  · rintro - - rfl
    exact ⟨_, rfl, rfl⟩
  · rintro e added (rfl | hadded)
    · exact .inl rfl
    · exact .inr (.inl hadded)

/-! ## Bring-up and profiles -/

/-- What a flag adds to a plan. -/
def requestedPlan (requested : Bool) (step : Step Line) : List (Step Line) :=
  if requested then [step] else []

/-- **The plan of a command** that asks for statuses: the exchanges in their
order. -/
def bringUpPlan (status timing jitter : Bool) : List (Step Line) :=
  [roundTripExchange 0x01#8 0x81#8 0x10#8 [],
    roundTripExchange 0x02#8 0x90#8 0x20#8 [0x11#8, 0x22#8, 0x33#8, 0x44#8]] ++
  (requestedPlan status (statusExchange 0x03#8 0x30#8 decodeCommStatus) ++
    (requestedPlan timing (statusExchange 0x04#8 0x40#8 decodeTimingStatus) ++
      requestedPlan jitter (statusExchange 0x05#8 0x50#8 decodeJitterStatus)))

def runtimeMemoryPlan : List (Step Line) :=
  [statusExchange 0x06#8 0x60#8 decodeRuntimeMemoryStatus]

def rtProfilePlan : List (Step Line) :=
  [statusExchange 0x07#8 0x70#8 decodeCpuLoadStatus,
    statusExchange 0x08#8 0x71#8 decodeOverrunStatus]

def validationPlan : List (Step Line) :=
  [statusExchange 0x04#8 0x80#8 decodeTimingStatus,
    statusExchange 0x05#8 0x81#8 decodeJitterStatus,
    statusExchange 0x06#8 0x82#8 decodeRuntimeMemoryStatus,
    statusExchange 0x07#8 0x83#8 decodeCpuLoadStatus,
    statusExchange 0x08#8 0x84#8 decodeOverrunStatus]

/-- **`with SerialLink`** adds nothing to the plan of its body: opening and
closing the port are not shown. -/
theorem follows_withLink {plan : List (Step Line)} {t : Termios} {port : String} {p : HostM α}
    (hp : Follows env line plan p) : Follows env line plan (withLink t port p) :=
  (silent_openLink t port).follows.bracket silent_closeLink hp

/-- A part that a flag asks for has its step in the plan exactly if it does. -/
theorem follows_whenRequested (requested : Bool) {step : Step Line} {part : HostM Unit}
    (h : Follows env line [step] part) :
    Follows env line (requestedPlan requested step) (whenRequested requested part) := by
  cases requested with
  | false => exact (silent_ret ()).follows
  | true => exact h

/-- **Bring-up** follows its plan: the PING, the ECHO, and one request for each
flag, in this order. -/
theorem follows_runSupervisor (pf : Platform) (port : String) (status timing jitter : Bool) :
    Follows env line (bringUpPlan status timing jitter)
      (runSupervisor pf port status timing jitter) := by
  have hping := @follows_roundTrip env [] 0x01#8 0x81#8 0x10#8 (Nat.zero_le 8)
  have hecho := @follows_roundTrip env [0x11#8, 0x22#8, 0x33#8, 0x44#8] 0x02#8 0x90#8 0x20#8
    (by decide)
  have hstatus : Follows env line [statusExchange 0x03#8 0x30#8 decodeCommStatus] showStatus :=
    (follows_requestStatus 0x03#8 0x30#8 _ _).bind_silent fun _ => silent_printAll _
  have htiming : Follows env line [statusExchange 0x04#8 0x40#8 decodeTimingStatus]
      (showTiming pf) :=
    (follows_requestStatus 0x04#8 0x40#8 _ _).bind_silent fun _ => silent_printAll _
  have hjitter : Follows env line [statusExchange 0x05#8 0x50#8 decodeJitterStatus] showJitter :=
    (follows_requestStatus 0x05#8 0x50#8 _ _).bind_silent fun _ => silent_printAll _
  refine (silent_printAll _).bind_follows fun _ => ?_
  refine (follows_withLink ?_).bind_silent fun _ => silent_printAll _
  refine (silent_sleep _).bind_follows fun _ => ?_
  refine hping.bind fun _ => ?_
  refine (silent_print _).bind_follows fun _ => ?_
  refine hecho.bind fun _ => ?_
  refine (silent_print _).bind_follows fun _ => ?_
  -- what the flags ask for
  refine (follows_whenRequested status hstatus).bind fun _ => ?_
  refine (follows_whenRequested timing htiming).bind fun _ => ?_
  exact follows_whenRequested jitter hjitter

/-- Judging the options shows nothing: it returns or raises. -/
theorem silent_validateObserveSeconds (seconds : ℚ) :
    Silent env line (validateObserveSeconds seconds) := .ite (silent_raise _) (silent_ret _)

/-- The SRAM watermark takes one exchange, after the observation window. -/
theorem follows_runRuntimeMemory (pf : Platform) (port : String) (seconds : ℚ) :
    Follows env line runtimeMemoryPlan (runRuntimeMemory pf port seconds) := by
  refine (silent_validateObserveSeconds _).bind_follows fun _ => ?_
  refine (silent_printAll _).bind_follows fun _ => ?_
  refine (follows_withLink ?_).bind_silent fun _ => silent_printAll _
  refine (silent_sleep _).bind_follows fun _ => ?_
  refine (silent_print _).bind_follows fun _ => ?_
  refine (silent_sleep _).bind_follows fun _ => ?_
  exact follows_requestStatus 0x06#8 0x60#8 _ _

/-- The runtime profile takes two, the load before the overruns. -/
theorem follows_runRtProfile (pf : Platform) (port : String) (seconds : ℚ) :
    Follows env line rtProfilePlan (runRtProfile pf port seconds) := by
  refine (silent_validateObserveSeconds _).bind_follows fun _ => ?_
  refine (silent_printAll _).bind_follows fun _ => ?_
  refine (follows_withLink ?_).bind_silent fun _ => silent_printAll _
  refine (silent_sleep _).bind_follows fun _ => ?_
  refine (silent_print _).bind_follows fun _ => ?_
  refine (silent_sleep _).bind_follows fun _ => ?_
  refine (follows_requestStatus 0x07#8 0x70#8 _ _).bind ?_
  intro cpuStatus
  exact (follows_requestStatus 0x08#8 0x71#8 _ _).bind_silent fun _ => silent_ret _

/-- **The build evidence** is collected without the board: it reads files and
runs a tool. -/
theorem silent_collectBuildEvidence (pf : Platform) (command : String) :
    Silent env line (collectBuildEvidence pf command) := by
  have hartifact : ∀ path, Silent env line (requireArtifact path) := by
    intro path
    refine (silent_call fun _ => rfl).bind ?_
    intro found
    exact .ite (silent_raise _) (silent_ret _)
  have hrun : ∀ path, Silent env line (runAvrSize command path) := by
    intro path
    refine Silent.handle (silent_call fun _ => rfl) ?_
    intro error
    exact .ite (silent_raise _) (silent_raise _)
  have hsha : ∀ path, Silent env line (os (.sha256File path)) := fun path =>
    silent_call fun _ => rfl
  refine (hartifact _).bind fun _ => ?_
  refine (hartifact _).bind fun _ => ?_
  refine (hartifact _).bind fun _ => ?_
  refine (hrun _).bind ?_
  intro completed
  refine .ite (silent_raise _) ?_
  refine (silent_ofExcept _).bind ?_
  intro size
  refine (hsha _).bind fun _ => ?_
  refine (hsha _).bind fun _ => ?_
  exact (hsha _).bind fun _ => silent_ret _

/-- So is the search for a free name of the report. -/
theorem silent_firstFreePath (measurements : String) (timestamp : DateTime) (indices : List ℕ) :
    Silent env line (firstFreePath measurements timestamp indices) := by
  induction indices with
  | nil => exact silent_raise _
  | cons index rest ih =>
    refine (silent_call fun _ => rfl).bind ?_
    intro taken
    exact .ite ih (silent_ret _)

/-- **Writing the report** shows nothing: it is no row of the table. -/
theorem silent_writeMeasurementReport (measurements path report : String) :
    Silent env line (writeMeasurementReport measurements path report) := by
  have hwrite : ∀ file, Silent env line
      (Script.andFinally (os (.writeText file report)) (os (.closeFile file))) := by
    intro file
    exact Emits.andFinally (silent_call fun _ => rfl) (silent_call fun _ => rfl)
      (fun _ _ _ h => h) fun _ _ _ h => h
  refine (silent_call fun _ => rfl).bind ?_
  intro found
  refine .ite (silent_raise _) (Silent.handle ?_ ?_)
  · exact (silent_call fun _ => rfl).bind hwrite
  · intro error
    exact .ite (silent_raise _) (.ite (silent_raise _) (silent_raise _))

/-- The five statuses of the profile are asked for in the order of the plan. -/
theorem follows_collectValidationRuntime :
    Follows env line validationPlan collectValidationRuntime := by
  refine (follows_requestStatus 0x04#8 0x80#8 _ _).bind ?_
  intro timing
  refine (follows_requestStatus 0x05#8 0x81#8 _ _).bind ?_
  intro jitter
  refine (follows_requestStatus 0x06#8 0x82#8 _ _).bind ?_
  intro memory
  refine (follows_requestStatus 0x07#8 0x83#8 _ _).bind ?_
  intro cpu
  exact (follows_requestStatus 0x08#8 0x84#8 _ _).bind_silent fun _ => silent_ret _

/-- **The validation profile** speaks to the board only between its prompts and
its report. -/
theorem follows_runValidationProfile (pf : Platform) (port : String) :
    Follows env line validationPlan (runValidationProfile pf port) := by
  refine (silent_collectBuildEvidence _ _).bind_follows ?_
  intro build
  refine (silent_printAll _).bind_follows fun _ => ?_
  refine (follows_withLink ?_).bind_silent ?_
  · -- the three prompts, each after its wait, and the statuses
    refine (silent_sleep _).bind_follows fun _ => ?_
    refine (silent_print _).bind_follows fun _ => ?_
    refine (silent_sleep _).bind_follows fun _ => ?_
    refine (silent_print _).bind_follows fun _ => ?_
    refine (silent_sleep _).bind_follows fun _ => ?_
    refine (silent_print _).bind_follows fun _ => ?_
    refine (silent_sleep _).bind_follows fun _ => ?_
    exact follows_collectValidationRuntime
  · intro runtime
    refine silent_now.bind ?_
    intro now
    refine (silent_firstFreePath _ _ _).bind ?_
    intro path
    refine (silent_writeMeasurementReport _ _ _).bind fun _ => ?_
    refine (silent_print _).bind fun _ => ?_
    refine (silent_call fun _ => rfl).bind fun _ => ?_
    exact silent_print _

/-! ## `main` -/

/-- **Exit code 0 is the command's return**, and whatever else it comes to,
the command raised. -/
theorem emits_main {pf : Platform} {port : String} {command : Command}
    {Q : List Line → Prop} {E : List Line → Prop}
    (h : Emits env line (command.script pf port) (fun _ => Q) fun _ => E)
    (hQE : ∀ added, Q added → E added) :
    Emits env line (main pf port command) (fun code added => (code = 0 → Q added) ∧ E added)
      fun _ => E := by
  refine Emits.handle (B := fun _ => E) (Emits.bind (h.conseq (fun _ _ h => h) fun _ _ h => h) ?_) ?_
  · intro _ added hadded
    refine emits_ret ?_
    rw [List.append_nil]
    exact ⟨fun _ => hadded, hQE added hadded⟩
  · intro e added hadded
    have hnil := List.append_nil added
    split
    · have hprint : ∀ text, Silent env line (os (.printError text)) := fun text =>
        silent_call fun _ => rfl
      refine Emits.bind (B := fun _ more => more = []) ((hprint _).emits (fun _ => rfl) ?_) ?_
      · exact fun _ => by rwa [hnil]
      rintro _ - rfl
      refine Emits.bind (B := fun _ more => more = []) ((hprint _).emits (fun _ => rfl) ?_) ?_
      · exact fun _ => by rwa [List.append_nil, hnil]
      rintro _ - rfl
      refine emits_ret ⟨nofun, ?_⟩
      rwa [List.append_nil, List.append_nil, hnil]
    · exact emits_raise (by rwa [hnil])

/-- **A run of `main` from an empty log** shows what its command emits: all
of it where the exit code is 0, and in any case no more than was begun. -/
theorem main_of_emits {pf : Platform} {port : String} {command : Command} {Q E : List Line → Prop}
    {o : Except Raised ℕ} {s : Handles} {log : OsLog}
    (hmain : Emits env line (main pf port command)
      (fun code added => (code = 0 → Q added) ∧ E added) fun _ => E)
    (h : Tree.Runs env (main pf port command ⟨none, none⟩) [] (o, s) log) :
    (o = .ok 0 → Q (transcript log)) ∧ E (transcript log) := by
  obtain ⟨added, hlog, hok, herror⟩ := hmain.run h
  obtain rfl : transcript log = added := hlog
  rcases o with e | code
  · exact ⟨nofun, herror e rfl⟩
  · obtain ⟨hkept, hstopped⟩ := hok code rfl
    refine ⟨?_, hstopped⟩
    rintro ⟨rfl⟩
    exact hkept rfl

/-- The plans of the commands that ask for statuses. -/
def statusPlan : Command → Option (List (Step Line))
  | .bringUp status timing jitter => some (bringUpPlan status timing jitter)
  | .memoryRuntime _ => some runtimeMemoryPlan
  | .rtProfile _ => some rtProfilePlan
  | .validationProfile => some validationPlan
  | _ => none

/-- **Each of these commands follows its plan**, whatever the board answers
and wherever it stops. -/
theorem follows_statusPlan (pf : Platform) (port : String) {command : Command}
    {plan : List (Step Line)} (h : statusPlan command = some plan) :
    Follows env line plan (command.script pf port) := by
  cases command with
  | bringUp status timing jitter =>
    cases h
    exact follows_runSupervisor pf port status timing jitter
  | memoryRuntime seconds =>
    cases h
    exact follows_runRuntimeMemory pf port seconds
  | rtProfile seconds =>
    cases h
    exact follows_runRtProfile pf port seconds
  | validationProfile =>
    cases h
    exact follows_runValidationProfile pf port
  | _ => cases h

/-- **No profile is reported without its exchanges.** Whatever the board
answers and whichever call fails: the requests that are written are the
first ones of the command's plan, each written only once the one before it
was answered with its own sequence and with what its decoder accepts, and
exit code 0 is returned only once all of them were. -/
theorem statuses_exchanged {pf : Platform} {port : String} {command : Command}
    {plan : List (Step Line)} {o : Except Raised ℕ} {s : Handles} {log : OsLog}
    (hplan : statusPlan command = some plan)
    (h : Tree.Runs env (main pf port command ⟨none, none⟩) [] (o, s) log) :
    (o = .ok 0 → Kept plan (transcript log)) ∧ Stopped plan (transcript log) :=
  main_of_emits (emits_main (follows_statusPlan pf port hplan) fun _ h => h.stopped) h

/-- What a board answers to PING, ECHO and a request for its counters. -/
def bringUpResponses : List Byte :=
  frameBytes 0x81#8 0x10#8 [] ++ frameBytes 0x90#8 0x20#8 [0x11#8, 0x22#8, 0x33#8, 0x44#8] ++
    frameBytes 0x83#8 0x30#8 [0#8, 2#8, 7#8]

/-- With `--status` the three exchanges are the whole plan, and bring-up keeps
it to the end. -/
theorem statuses_exchanged_bringUp :
    Kept (bringUpPlan true false false) (transcript
      (ranOn bringUpResponses (main plainPlatform "/dev/ttyACM0" (.bringUp true false false))).2) :=
  (statuses_exchanged rfl (ranOn_runs bringUpResponses
    (main plainPlatform "/dev/ttyACM0" (.bringUp true false false)))).1 (by decide +kernel)

end SentryCell.Host.Supervisor
