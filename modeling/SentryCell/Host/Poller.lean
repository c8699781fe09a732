import SentryCell.Host.DashboardLog
/-!
# The dashboard's poller

`DashboardPoller._next_sequence`, `_request` and `poll_once` of
`supervisor/dashboard.py`. A method is an action of `EStateM`: it returns
or raises, and what it changed before it raised stays changed. The serial
link, the frame reader and the clock are what the poller was given
(`Peripherals`); nothing is assumed of them, so that every outcome of
every call is covered. `Conducts` says of an action that it is a sequence
of whole transactions up to the one that fails.
-/

namespace SentryCell.Host

def typeGetCommStatus : ℕ := 0x03
def typeGetTimingStatus : ℕ := 0x04
def typeGetJitterStatus : ℕ := 0x05
def typeGetRuntimeMemoryStatus : ℕ := 0x06
def typeGetCpuLoadStatus : ℕ := 0x07
def typeGetOverrunStatus : ℕ := 0x08
def typeGetWatchdogStatus : ℕ := 0x0B

/-! ## What the poller works with -/

/-- **An exception**: the name of its class, its text, and whether it is a
`SerialTimeoutError`. -/
structure PyException where
  typeName : String
  text : String
  serialTimeout : Bool
  deriving DecidableEq, Repr

/-- The codec's exceptions are none of them timeouts. -/
def PyError.exception : PyError → PyException
  | .protocolError message => ⟨"ProtocolError", message, false⟩
  | .crcError message => ⟨"CRCError", message, false⟩
  | .valueError message => ⟨"ValueError", message, false⟩

/-- **The link, the frame reader and the clock**, on a state of theirs. -/
structure Peripherals (σ T : Type) where
  write : List Byte → σ → Except PyException Unit × σ
  readFrame : σ → Except PyException Frame × σ
  recoverRxAfterTimeout : σ → Except PyException Unit × σ
  time : σ → T × σ

/-- A call of the link or of the frame reader, and how it ended. -/
inductive LinkCall where
  | write (data : List Byte) (outcome : Except PyException Unit)
  | read (outcome : Except PyException Frame)
  | recover (outcome : Except PyException Unit)

variable {T σ α β : Type} [LinearOrder T] [Sub T] [Zero T]

/-- **The poller**: its sequence counter, its store and its link, and for
the record the calls it has made of both. -/
structure Poller (σ : Type) (limits : StoreLimits T) where
  sequence : ℤ
  store : DashboardStore limits
  link : σ
  linkCalls : List LinkCall
  storeCalls : List (StoreCall T)

/-- A method of the poller. -/
abbrev PollM (σ : Type) (limits : StoreLimits T) :=
  EStateM PyException (Poller σ limits)

variable {limits : StoreLimits T}

/-- `_next_sequence`. `& 0xFF` is the remainder. -/
def nextSequence : PollM σ limits ℤ := fun p =>
  .ok p.sequence { p with sequence := (p.sequence + 1) % 256 }

/-- The result of a function that may raise. -/
def orRaise (outcome : Except PyError α) : PollM σ limits α := fun p =>
  match outcome with
  | .ok a => .ok a p
  | .error e => .error e.exception p

/-- A call of the link, recorded. -/
def callLink (call : σ → Except PyException α × σ) (log : Except PyException α → LinkCall) :
    PollM σ limits α := fun p =>
  let outcome := (call p.link).1
  let p := { p with
    link := (call p.link).2
    linkCalls := p.linkCalls ++ [log outcome] }
  match outcome with
  | .ok a => .ok a p
  | .error e => .error e p

variable (io : Peripherals σ T) (clock : Clock T)

/-- A call of the store at the clock's time, recorded. -/
def callStore (call : T → StoreCall T) : PollM σ limits Unit := fun p =>
  let now := (io.time p.link).1
  .ok () { p with
    link := (io.time p.link).2
    store := p.store.call clock limits (call now)
    storeCalls := p.storeCalls ++ [call now] }

/-- `_request`. -/
def request (requestType responseType : ℕ) (decoder : Frame → Except PyError α) :
    PollM σ limits α := do
  let sequence ← nextSequence
  -- the sequence is used up, whatever becomes of the request
  let data ← orRaise (encodeFrame ⟨requestType, sequence, []⟩)
  callLink (io.write data) (.write data)
  let response ← callLink io.readFrame .read
  if response.frameType ≠ responseType then
    throw ⟨"ValueError", "unexpected response type 0x" ++ hexInt response.frameType ++
      "; expected 0x" ++ hex02 responseType, false⟩
  if response.sequence ≠ sequence then
    throw ⟨"ValueError", "unexpected response sequence 0x" ++ hexInt response.sequence ++
      "; expected 0x" ++ hexInt sequence, false⟩
  orRaise (decoder response)

/-- The seven requests of `poll_once`. -/
def pollStatuses : PollM σ limits Telemetry := do
  let comm ← request io typeGetCommStatus typeCommStatus decodeCommStatus
  let timing ← request io typeGetTimingStatus typeTimingStatus decodeTimingStatus
  let jitter ← request io typeGetJitterStatus typeJitterStatus decodeJitterStatus
  let runtimeMemory ←
    request io typeGetRuntimeMemoryStatus typeRuntimeMemoryStatus decodeRuntimeMemoryStatus
  let cpu ← request io typeGetCpuLoadStatus typeCpuLoadStatus decodeCpuLoadStatus
  let overruns ← request io typeGetOverrunStatus typeOverrunStatus decodeOverrunStatus
  let watchdog ← request io typeGetWatchdogStatus typeWatchdogStatus decodeWatchdogStatus
  return ⟨comm, timing, jitter, runtimeMemory, cpu, overruns, watchdog⟩

/-- `f"{type(error).__name__}: {error}"`. -/
def PyException.message (error : PyException) : String := error.typeName ++ ": " ++ error.text

/-- What `poll_once` does with an exception of a request. -/
def pollFailed (error : PyException) : PollM σ limits Bool := do
  if error.serialTimeout then
    callStore io clock (.failure error.message)
    -- a purge that raises is recorded as one more failure, and goes no
    -- further
    tryCatch (callLink io.recoverRxAfterTimeout .recover) fun recoveryError =>
      callStore io clock
        (.failure (error.message ++ "; RX recovery failed: " ++ recoveryError.message))
    return false
  else
    -- without a time-out nothing is purged
    callStore io clock (.failure error.message)
    return false

/-- What `poll_once` does with the seven statuses. -/
def pollSucceeded (telemetry : Telemetry) : PollM σ limits Bool := do
  callStore io clock (.success telemetry)
  return true

/-- `poll_once`. What follows the `try` is outside it. -/
def pollOnce : PollM σ limits Bool := fun p =>
  match pollStatuses io p with
  | .ok telemetry p => pollSucceeded io clock telemetry p
  | .error error p => pollFailed io clock error p

/-! ## Transactions -/

/-- The types of a request and of its response. -/
structure Query where
  requestType : ℕ
  responseType : ℕ
  deriving DecidableEq, Repr

/-- The seven queries of a cycle, in order. -/
def dashboardQueries : List Query :=
  [⟨typeGetCommStatus, typeCommStatus⟩, ⟨typeGetTimingStatus, typeTimingStatus⟩,
    ⟨typeGetJitterStatus, typeJitterStatus⟩,
    ⟨typeGetRuntimeMemoryStatus, typeRuntimeMemoryStatus⟩,
    ⟨typeGetCpuLoadStatus, typeCpuLoadStatus⟩, ⟨typeGetOverrunStatus, typeOverrunStatus⟩,
    ⟨typeGetWatchdogStatus, typeWatchdogStatus⟩]

/-- **A whole transaction**: the request that was written and the response
that was read. -/
structure Transaction where
  data : List Byte
  response : Frame

/-- The calls it takes. -/
def Transaction.calls (t : Transaction) : List LinkCall :=
  [.write t.data (.ok ()), .read (.ok t.response)]

/-- **The response matches the request**: the request is the query with
the sequence, and the response is of the query's type and the same
sequence. -/
structure Transaction.Matches (t : Transaction) (q : Query) (sequence : ℤ) : Prop where
  request : encodeFrame ⟨q.requestType, sequence, []⟩ = .ok t.data
  type : t.response.frameType = q.responseType
  sequence : t.response.sequence = sequence

/-- The sequence after another. -/
def nextOctet (sequence : ℤ) : ℤ := (sequence + 1) % 256

/-- **Transactions for some queries**, with consecutive sequences. -/
def Conducted : List Query → ℤ → List Transaction → Prop
  | [], _, done => done = []
  | q :: queries, sequence, done =>
    ∃ t rest, done = t :: rest ∧ t.Matches q sequence ∧ Conducted queries (nextOctet sequence) rest

/-- **A transaction that failed**: how far it came, and with which
exception. A response is refused with an exception that is no timeout. -/
inductive Broken (q : Query) (sequence : ℤ) : List LinkCall → PyException → Prop
  | encode {error : PyError} (h : encodeFrame ⟨q.requestType, sequence, []⟩ = .error error) :
      Broken q sequence [] error.exception
  | write {data : List Byte} {error : PyException}
      (h : encodeFrame ⟨q.requestType, sequence, []⟩ = .ok data) :
      Broken q sequence [.write data (.error error)] error
  | read {data : List Byte} {error : PyException}
      (h : encodeFrame ⟨q.requestType, sequence, []⟩ = .ok data) :
      Broken q sequence [.write data (.ok ()), .read (.error error)] error
  | response {data : List Byte} {response : Frame} {error : PyException}
      (h : encodeFrame ⟨q.requestType, sequence, []⟩ = .ok data)
      (herror : error.serialTimeout = false) :
      Broken q sequence [.write data (.ok ()), .read (.ok response)] error

/-- What an action does besides: it makes `calls` of the link and takes
`n` sequences, and does not touch the store. -/
structure Advanced (p p' : Poller σ limits) (calls : List LinkCall) (n : ℕ) : Prop where
  store : p'.store = p.store
  storeCalls : p'.storeCalls = p.storeCalls
  linkCalls : p'.linkCalls = p.linkCalls ++ calls
  sequence : p'.sequence = nextOctet^[n] p.sequence

/-- **A sequence of whole transactions**, up to the one that fails. -/
def Conducts (queries : List Query) (m : PollM σ limits α)
    (P : List Transaction → α → Prop) : Prop :=
  ∀ p, match m p with
    | .ok a p' => ∃ done, Conducted queries p.sequence done ∧
        Advanced p p' (done.flatMap Transaction.calls) queries.length ∧ P done a
    | .error e p' => ∃ before q after done last, queries = before ++ q :: after ∧
        Conducted before p.sequence done ∧
        Broken q (nextOctet^[before.length] p.sequence) last e ∧
        Advanced p p' (done.flatMap Transaction.calls ++ last) (before.length + 1)

omit [Sub T] in
/-- Two advances in sequence make one, with the calls of both. -/
theorem Advanced.trans {p p' p'' : Poller σ limits} {calls calls' : List LinkCall} {m n : ℕ}
    (h : Advanced p p' calls m) (h' : Advanced p' p'' calls' n) :
    Advanced p p'' (calls ++ calls') (n + m) where
  store := h'.store.trans h.store
  storeCalls := h'.storeCalls.trans h.storeCalls
  linkCalls := by rw [h'.linkCalls, h.linkCalls, List.append_assoc]
  sequence := by rw [h'.sequence, h.sequence, Function.iterate_add_apply]

omit [Sub T] in
/-- A return conducts no transaction, and takes no sequence. -/
theorem conducts_pure (a : α) :
    Conducts [] (pure a : PollM σ limits α) fun done b => done = [] ∧ b = a := by
  intro p
  exact ⟨[], rfl, ⟨rfl, rfl, (List.append_nil _).symm, rfl⟩, rfl, rfl⟩

omit [Sub T] in
/-- Less may be said of the transactions that were conducted. -/
theorem Conducts.mono {queries : List Query} {m : PollM σ limits α}
    {P P' : List Transaction → α → Prop} (h : Conducts queries m P)
    (hP : ∀ done a, P done a → P' done a) : Conducts queries m P' := by
  intro p
  have hp := h p
  rcases hrun : m p with ⟨a, p'⟩ | ⟨e, p'⟩
  · rw [hrun] at hp
    obtain ⟨done, hcond, hadv, hdone⟩ := hp
    exact ⟨done, hcond, hadv, hP done a hdone⟩
  · rw [hrun] at hp
    exact hp

omit [Sub T] in
/-- **One transaction, and those after it**: the queries are conducted in
their order, or the first that fails ends them. -/
theorem Conducts.bind {q : Query} {queries : List Query} {m : PollM σ limits α}
    {f : α → PollM σ limits β} {P : Transaction → α → Prop} {Q : α → List Transaction → β → Prop}
    (hm : Conducts [q] m fun done a => ∃ t, done = [t] ∧ P t a)
    (hf : ∀ a, Conducts queries (f a) (Q a)) :
    Conducts (q :: queries) (m >>= f) fun done b =>
      ∃ t rest a, done = t :: rest ∧ P t a ∧ Q a rest b := by
  intro p
  have hmp := hm p
  show match EStateM.bind m f p with
    | .ok b p' => _
    | .error e p' => _
  unfold EStateM.bind
  rcases hrun : m p with ⟨a, p₁⟩ | ⟨e, p₁⟩
  · rw [hrun] at hmp
    obtain ⟨-, ⟨t, -, rfl, hmatch, rfl⟩, hadv, t', ht', hP⟩ := hmp
    obtain ⟨rfl, -⟩ := List.cons.inj ht'
    have hseq : p₁.sequence = nextOctet p.sequence := hadv.sequence
    have hfp := hf a p₁
    dsimp only
    rcases hrest : f a p₁ with ⟨b, p₂⟩ | ⟨e, p₂⟩
    · rw [hrest, hseq] at hfp
      obtain ⟨rest, hcond, hadv', hQ⟩ := hfp
      exact ⟨t :: rest, ⟨t, rest, rfl, hmatch, hcond⟩, hadv.trans hadv', t, rest, a, rfl, hP, hQ⟩
    · rw [hrest, hseq] at hfp
      obtain ⟨before, q', after, rest, last, rfl, hcond, hbroken, hadv'⟩ := hfp
      refine ⟨q :: before, q', after, t :: rest, last, rfl, ⟨t, rest, rfl, hmatch, hcond⟩, ?_, ?_⟩
      · exact hbroken
      · rw [List.flatMap_cons, List.append_assoc, ← List.flatMap_singleton Transaction.calls]
        exact hadv.trans hadv'
  · rw [hrun] at hmp
    obtain ⟨before, q', after, done, last, hq, hcond, hbroken, hadv⟩ := hmp
    -- the one query is the one that failed
    rcases before with _ | ⟨q₀, before⟩
    · obtain ⟨rfl, rfl⟩ := List.cons.inj hq
      exact ⟨[], q, queries, done, last, rfl, hcond, hbroken, hadv⟩
    · have hlen := congrArg List.length hq
      simp at hlen

/-- What the codec raises is no time-out, so that no purge follows it. -/
theorem exception_serialTimeout (error : PyError) : error.exception.serialTimeout = false := by
  rcases error <;> rfl

omit [Sub T] in
/-- **A request is one transaction**: its frame is matched and decoded, or it
raises. -/
theorem conducts_request (requestType responseType : ℕ) (decoder : Frame → Except PyError α) :
    Conducts [⟨requestType, responseType⟩]
      (request io requestType responseType decoder : PollM σ limits α)
      fun done a => ∃ t, done = [t] ∧ decoder t.response = .ok a := by
  intro p
  let q : Query := ⟨requestType, responseType⟩
  have hbroken : ∀ {p' : Poller σ limits} {calls : List LinkCall} {e : PyException},
      Broken q p.sequence calls e → Advanced p p' calls 1 →
      ∃ before q' after done last, [q] = before ++ q' :: after ∧
        Conducted before p.sequence done ∧
        Broken q' (nextOctet^[before.length] p.sequence) last e ∧
        Advanced p p' (done.flatMap Transaction.calls ++ last) (before.length + 1) :=
    fun hb ha => ⟨[], q, [], [], _, rfl, rfl, hb, ha⟩
  simp only [request, nextSequence, orRaise, callLink, bind, EStateM.bind]
  rcases hdata : encodeFrame ⟨requestType, p.sequence, []⟩ with error | data
  · exact hbroken (.encode hdata) ⟨rfl, rfl, (List.append_nil _).symm, rfl⟩
  dsimp only
  rcases hwrite : (io.write data p.link).1 with error | ⟨⟩
  · exact hbroken (.write hdata) ⟨rfl, rfl, rfl, rfl⟩
  dsimp only
  rcases hread : (io.readFrame (io.write data p.link).2).1 with error | response
  · refine hbroken (.read hdata) ⟨rfl, rfl, ?_, rfl⟩
    exact List.append_assoc _ _ _
  have hcalls : ∀ {p' : Poller σ limits}, p'.store = p.store → p'.storeCalls = p.storeCalls →
      p'.linkCalls = p.linkCalls ++ [.write data (.ok ())] ++ [.read (.ok response)] →
      p'.sequence = nextOctet p.sequence →
      Advanced p p' [.write data (.ok ()), .read (.ok response)] 1 := by
    intro p' hstore hstored hlink hseq
    exact ⟨hstore, hstored, hlink.trans (List.append_assoc _ _ _), hseq⟩
  dsimp only
  by_cases htype : response.frameType = responseType
  swap
  · rw [if_pos htype]
    exact hbroken (.response hdata rfl) (hcalls rfl rfl rfl rfl)
  rw [if_neg (not_not.mpr htype)]
  by_cases hseq : response.sequence = p.sequence
  swap
  · rw [if_pos hseq]
    exact hbroken (.response hdata rfl) (hcalls rfl rfl rfl rfl)
  rw [if_neg (not_not.mpr hseq)]
  unfold orRaise
  rcases hdecode : decoder response with error | a
  · exact hbroken (.response hdata (exception_serialTimeout error)) (hcalls rfl rfl rfl rfl)
  · let t : Transaction := ⟨data, response⟩
    exact ⟨[t], ⟨t, [], rfl, ⟨hdata, htype, hseq⟩, rfl⟩, hcalls rfl rfl rfl rfl, t, rfl, hdecode⟩

/-! ## A cycle -/

/-- **The statuses are those of the seven responses.** -/
def Decoded (done : List Transaction) (telemetry : Telemetry) : Prop :=
  ∃ comm timing jitter runtimeMemory cpu overruns watchdog : Transaction,
    done = [comm, timing, jitter, runtimeMemory, cpu, overruns, watchdog] ∧
    decodeCommStatus comm.response = .ok telemetry.comm ∧
    decodeTimingStatus timing.response = .ok telemetry.timing ∧
    decodeJitterStatus jitter.response = .ok telemetry.jitter ∧
    decodeRuntimeMemoryStatus runtimeMemory.response = .ok telemetry.runtimeMemory ∧
    decodeCpuLoadStatus cpu.response = .ok telemetry.cpu ∧
    decodeOverrunStatus overruns.response = .ok telemetry.overruns ∧
    decodeWatchdogStatus watchdog.response = .ok telemetry.watchdog

omit [Sub T] in
/-- **The queries of a cycle** are conducted one after the other, and decoded
into one telemetry. -/
theorem conducts_pollStatuses :
    Conducts dashboardQueries (pollStatuses io : PollM σ limits Telemetry) Decoded := by
  have hrequest : ∀ {α : Type} (requestType responseType : ℕ)
      (decoder : Frame → Except PyError α),
      Conducts [⟨requestType, responseType⟩]
        (request io requestType responseType decoder : PollM σ limits α)
        fun done a => ∃ t, done = [t] ∧ decoder t.response = .ok a :=
    conducts_request io
  refine Conducts.mono ((hrequest _ _ decodeCommStatus).bind fun comm =>
    (hrequest _ _ decodeTimingStatus).bind fun timing =>
    (hrequest _ _ decodeJitterStatus).bind fun jitter =>
    (hrequest _ _ decodeRuntimeMemoryStatus).bind fun runtimeMemory =>
    (hrequest _ _ decodeCpuLoadStatus).bind fun cpu =>
    (hrequest _ _ decodeOverrunStatus).bind fun overruns =>
    (hrequest _ _ decodeWatchdogStatus).bind fun watchdog => conducts_pure _) ?_
  rintro done telemetry ⟨t₀, -, comm, rfl, h₀, t₁, -, timing, rfl, h₁, t₂, -, jitter, rfl, h₂,
    t₃, -, memory, rfl, h₃, t₄, -, cpu, rfl, h₄, t₅, -, overruns, rfl, h₅,
    t₆, -, watchdog, rfl, h₆, rfl, rfl⟩
  exact ⟨t₀, t₁, t₂, t₃, t₄, t₅, t₆, rfl, h₀, h₁, h₂, h₃, h₄, h₅, h₆⟩

/-- Whether a call of the store reports a failure. -/
def StoreCall.isFailure : StoreCall T → Bool
  | .success _ _ => false
  | .failure _ _ => true

/-- **A cycle that succeeded**: seven whole transactions, and one call of
the store with the statuses of their responses. -/
def CycleSucceeded (p p' : Poller σ limits) : Prop :=
  ∃ done telemetry now, Conducted dashboardQueries p.sequence done ∧ Decoded done telemetry ∧
    p'.linkCalls = p.linkCalls ++ done.flatMap Transaction.calls ∧
    p'.storeCalls = p.storeCalls ++ [.success telemetry now] ∧
    p'.store = p.store.recordSuccess clock telemetry now ∧
    p'.sequence = nextOctet^[7] p.sequence

/-- **What leaves the store's values alone**: besides `calls` of the link
and `n` sequences, only failures are reported to the store. -/
structure Unharmed (p p' : Poller σ limits) (calls : List LinkCall) (n : ℕ) : Prop where
  linkCalls : p'.linkCalls = p.linkCalls ++ calls
  storeCalls : ∃ failures, p'.storeCalls = p.storeCalls ++ failures ∧
    ∀ c ∈ failures, c.isFailure = true
  history : p'.store.history = p.store.history
  snapshot : ∃ connection lastError, p'.store.snapshot =
    { p.store.snapshot with connection := connection, lastError := lastError }
  sequence : p'.sequence = nextOctet^[n] p.sequence

omit [Sub T] in
/-- What harms no store in either of two parts harms none in both. -/
theorem Unharmed.trans {p p' p'' : Poller σ limits} {calls calls' : List LinkCall} {m n : ℕ}
    (h : Unharmed p p' calls m) (h' : Unharmed p' p'' calls' n) :
    Unharmed p p'' (calls ++ calls') (n + m) := by
  obtain ⟨failures, hstored, hfailures⟩ := h.storeCalls
  obtain ⟨failures', hstored', hfailures'⟩ := h'.storeCalls
  obtain ⟨connection, lastError, hsnapshot⟩ := h.snapshot
  obtain ⟨connection', lastError', hsnapshot'⟩ := h'.snapshot
  refine ⟨?_, ⟨failures ++ failures', ?_, ?_⟩, h'.history.trans h.history,
    ⟨connection', lastError', ?_⟩, ?_⟩
  · rw [h'.linkCalls, h.linkCalls, List.append_assoc]
  · rw [hstored', hstored, List.append_assoc]
  · intro c hc
    rcases List.mem_append.mp hc with hc | hc
    · exact hfailures c hc
    · exact hfailures' c hc
  · rw [hsnapshot', hsnapshot]
  · rw [h'.sequence, h.sequence, Function.iterate_add_apply]

omit [Sub T] in
/-- What advances the poller without touching the store harms none of it. -/
theorem Advanced.unharmed {p p' : Poller σ limits} {calls : List LinkCall} {n : ℕ}
    (h : Advanced p p' calls n) : Unharmed p p' calls n := by
  refine ⟨h.linkCalls, ⟨[], ?_, fun c hc => by cases hc⟩, ?_, ?_, h.sequence⟩
  · rw [h.storeCalls, List.append_nil]
  · rw [h.store]
  · exact ⟨p.store.snapshot.connection, p.store.snapshot.lastError, by rw [h.store]⟩

/-- A failure is reported to the store, which keeps its values. -/
theorem callStore_failure (error : String) (p : Poller σ limits) :
    ∃ p', callStore io clock (.failure error) p = .ok () p' ∧ Unharmed p p' [] 0 := by
  refine ⟨_, rfl, (List.append_nil _).symm, ⟨_, rfl, fun c hc => ?_⟩, ?_, ?_, rfl⟩
  · rw [List.mem_singleton.mp hc]
    rfl
  · exact history_recordFailure clock
  · exact ⟨_, _, snapshot_recordFailure clock⟩

omit [Sub T] in
/-- A call of the link that returns advances the poller by that call. -/
theorem callLink_ok {call : σ → Except PyException α × σ} {p : Poller σ limits} {a : α}
    (log : Except PyException α → LinkCall) (h : (call p.link).1 = .ok a) :
    ∃ p', callLink call log p = .ok a p' ∧ Advanced p p' [log (.ok a)] 0 := by
  refine ⟨{ p with
    link := (call p.link).2
    linkCalls := p.linkCalls ++ [log (.ok a)] }, ?_, rfl, rfl, rfl, rfl⟩
  simp only [callLink, h]

omit [Sub T] in
/-- A call of the link that raises is recorded with the exception, and ends
the action. -/
theorem callLink_error {call : σ → Except PyException α × σ} {p : Poller σ limits}
    {e : PyException} (log : Except PyException α → LinkCall) (h : (call p.link).1 = .error e) :
    ∃ p', callLink call log p = .error e p' ∧ Advanced p p' [log (.error e)] 0 := by
  refine ⟨{ p with
    link := (call p.link).2
    linkCalls := p.linkCalls ++ [log (.error e)] }, ?_, rfl, rfl, rfl, rfl⟩
  simp only [callLink, h]

/-- One recovery harms no store, whether it raises or not. -/
theorem recover_unharmed (message : PyException → String) (p : Poller σ limits) :
    ∃ p' outcome, tryCatch (callLink io.recoverRxAfterTimeout .recover)
        (fun recoveryError => callStore io clock (.failure (message recoveryError))) p =
        .ok () p' ∧ Unharmed p p' [.recover outcome] 0 := by
  rcases houtcome : (io.recoverRxAfterTimeout p.link).1 with recoveryError | ⟨⟩
  · -- the handler reports the second failure
    obtain ⟨p₁, hcall, h₁⟩ := callLink_error LinkCall.recover houtcome
    obtain ⟨p₂, hstore, h₂⟩ := callStore_failure io clock (message recoveryError) p₁
    refine ⟨p₂, _, ?_, h₁.unharmed.trans h₂⟩
    simp only [tryCatch, tryCatchThe, MonadExceptOf.tryCatch, EStateM.tryCatch, hcall]
    exact hstore
  · obtain ⟨p₁, hcall, h₁⟩ := callLink_ok LinkCall.recover houtcome
    refine ⟨p₁, _, ?_, h₁.unharmed⟩
    simp only [tryCatch, tryCatchThe, MonadExceptOf.tryCatch, EStateM.tryCatch, hcall]

/-- **An exception of a request is handled**: a timeout with one recovery,
however that ends, and any other exception with none. -/
theorem pollFailed_unharmed (error : PyException) (p : Poller σ limits) :
    ∃ p' recovery, pollFailed io clock error p = .ok false p' ∧ Unharmed p p' recovery 0 ∧
      if error.serialTimeout then ∃ outcome, recovery = [.recover outcome] else recovery = [] := by
  unfold pollFailed
  obtain ⟨p₁, hstore, h₁⟩ := callStore_failure io clock error.message p
  by_cases ht : error.serialTimeout = true
  · obtain ⟨p₂, outcome, hrecover, h₂⟩ := recover_unharmed io clock
      (fun recoveryError =>
        error.message ++ "; RX recovery failed: " ++ recoveryError.message) p₁
    simp only [if_pos ht]
    refine ⟨p₂, [.recover outcome], ?_, h₁.trans h₂, outcome, rfl⟩
    simp only [bind, EStateM.bind, hstore, hrecover]
    rfl
  · simp only [if_neg ht]
    refine ⟨p₁, [], ?_, h₁, rfl⟩
    simp only [bind, EStateM.bind, hstore]
    rfl

/-- **A cycle that failed**: some of the transactions, the one that broke,
and after a timeout one recovery; and the store keeps its values. -/
def CycleFailed (p p' : Poller σ limits) : Prop :=
  ∃ before q after done last error recovery,
    dashboardQueries = before ++ q :: after ∧ Conducted before p.sequence done ∧
    Broken q (nextOctet^[before.length] p.sequence) last error ∧
    Unharmed p p' (done.flatMap Transaction.calls ++ last ++ recovery) (before.length + 1) ∧
    if error.serialTimeout then ∃ outcome, recovery = [.recover outcome] else recovery = []

/-- **Polling is all or nothing.** Whatever the link, the frame reader and
the clock do, `poll_once` raises nothing: it returns `True` after a cycle
that succeeded, or `False` after one that failed. -/
theorem poll_all_or_nothing (p : Poller σ limits) :
    (∃ p', pollOnce io clock p = .ok true p' ∧ CycleSucceeded clock p p') ∨
    (∃ p', pollOnce io clock p = .ok false p' ∧ CycleFailed p p') := by
  have hcycle := conducts_pollStatuses io p
  unfold pollOnce
  rcases hrun : pollStatuses io p with ⟨telemetry, p₁⟩ | ⟨error, p₁⟩
  · rw [hrun] at hcycle
    obtain ⟨done, hcond, hadv, hdecoded⟩ := hcycle
    refine .inl ⟨_, rfl, done, telemetry, (io.time p₁.link).1, hcond, hdecoded, hadv.linkCalls,
      ?_, ?_, hadv.sequence⟩
    · rw [← hadv.storeCalls]
    · rw [← hadv.store]
      rfl
  · rw [hrun] at hcycle
    obtain ⟨before, q, after, done, last, hq, hcond, hbroken, hadv⟩ := hcycle
    obtain ⟨p', recovery, hfailed, hun, hrecovery⟩ := pollFailed_unharmed io clock error p₁
    refine .inr ⟨p', hfailed, before, q, after, done, last, error, recovery, hq, hcond, hbroken,
      ?_, hrecovery⟩
    have hboth := hadv.unharmed.trans hun
    rwa [Nat.zero_add] at hboth

end SentryCell.Host
