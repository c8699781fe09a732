import SentryCell.Host.SerialLink
/-!
# A cycle over a port

`poll_once` over a port that has bytes buffered, and a device that answers
every request with one response. A cycle from an empty buffer succeeds and
leaves it empty. A response that is refused leaves what follows it
buffered, for the cycle that comes next; only a timeout has the port
flushed.
-/

namespace SentryCell.Host

/-! ## The port and the device -/

/-- **The port**: the bytes it has buffered, what was written to it, and
how often the clock has been read. -/
structure Port where
  rx : List Byte
  writes : List (List Byte)
  ticks : ℕ

/-- **A device**: what it sends after a write, given those before. -/
abbrev Device := List (List Byte) → List Byte → List Byte

/-- What a method of the link does to a port. -/
def LinkM.onPort {α : Type} (m : LinkM α) (port : Port) : Except PyException α × Port :=
  let result : Except PyException α × List Byte := m port.rx
  (result.1, { port with rx := result.2 })

variable {T : Type}

/-- **The port as the poller's link.** The answer to a write is buffered
before the read, and `tcflush` discards all that is. -/
def portPeripherals (device : Device) (now : ℕ → T) : Peripherals Port T where
  write data port := (.ok (), { port with
    rx := port.rx ++ device port.writes data
    writes := port.writes ++ [data] })
  readFrame := readProtocolFrame.onPort
  recoverRxAfterTimeout port := (.ok (), { port with rx := [] })
  time port := (now port.ticks, { port with ticks := port.ticks + 1 })

/-- The queries, and whether a response is decoded. -/
def dashboardResponses : List (Query × (Frame → Bool)) :=
  dashboardQueries.zip
    [fun frame => (decodeCommStatus frame).isOk, fun frame => (decodeTimingStatus frame).isOk,
      fun frame => (decodeJitterStatus frame).isOk,
      fun frame => (decodeRuntimeMemoryStatus frame).isOk,
      fun frame => (decodeCpuLoadStatus frame).isOk, fun frame => (decodeOverrunStatus frame).isOk,
      fun frame => (decodeWatchdogStatus frame).isOk]

/-- A response to a query. -/
structure Answers (q : Query) (decodes : Frame → Bool) (sequence : ℤ) (response : Frame) :
    Prop where
  type : response.frameType = q.responseType
  sequence : response.sequence = sequence
  decoded : decodes response = true

/-- **A device that answers every request with exactly one correct
response.** -/
def Device.Correct (device : Device) : Prop :=
  ∀ q decodes, (q, decodes) ∈ dashboardResponses → ∀ sequence data writes,
    encodeFrame ⟨q.requestType, sequence, []⟩ = .ok data →
    ∃ response, decodeFrame (device writes data) = .ok response ∧
      Answers q decodes sequence response

variable [LinearOrder T] [Sub T] [Zero T] {limits : StoreLimits T}

/-- `DashboardPoller` as it is constructed. -/
def Poller.new (limits : StoreLimits T) (port : Port) : Poller Port limits where
  sequence := 0x90
  store := DashboardStore.new limits
  link := port
  linkCalls := []
  storeCalls := []

variable (device : Device) (now : ℕ → T) (clock : Clock T)

/-- The poller after a cycle. -/
def nextPoller (p : Poller Port limits) : Poller Port limits :=
  match pollOnce (portPeripherals device now) clock p with
  | .ok _ p' => p'
  | .error _ p' => p'

/-- A cycle that returns `True`. -/
def Succeeds (p : Poller Port limits) : Prop :=
  ∃ p', pollOnce (portPeripherals device now) clock p = .ok true p'

/-- What is buffered, and the counter. -/
structure Poller.At (p : Poller Port limits) (rx : List Byte) (s : Byte) : Prop where
  rx : p.link.rx = rx
  sequence : p.sequence = s.toNat

/-! ## One request -/

variable {p : Poller Port limits} {q : Query} {decodes : Frame → Bool} {rx rest x : List Byte}
variable {s : Byte} {α : Type}

/-- The next sequence of the poller is the next byte. -/
theorem nextOctet_toNat (s : Byte) : nextOctet (s.toNat : ℤ) = ((s + 1).toNat : ℤ) := by
  unfold nextOctet
  rw [BitVec.toNat_add]
  rfl

/-- The bytes of a request. -/
def requestBytes (q : Query) (s : Byte) : List Byte :=
  frameBytes (BitVec.ofNat 8 q.requestType) s []

/-- A request without payload is encoded as its bytes. -/
theorem encodeFrame_request (hq : q.requestType ≤ 255) :
    encodeFrame ⟨q.requestType, (s.toNat : ℤ), []⟩ = .ok (requestBytes q s) := by
  have htype : q.requestType = (BitVec.ofNat 8 q.requestType).toNat := by
    rw [BitVec.toNat_ofNat, Nat.mod_eq_of_lt (by omega)]
  rw [requestBytes]
  conv_lhs => rw [htype]
  exact encodeFrame_octets (Nat.zero_le _)

/-- What `_request` does with a response. -/
def checkResponse (q : Query) (sequence : ℤ) (decoder : Frame → Except PyError α)
    (response : Frame) : PollM Port limits α := do
  if response.frameType ≠ q.responseType then
    throw ⟨"ValueError", "unexpected response type 0x" ++ hexInt response.frameType ++
      "; expected 0x" ++ hex02 q.responseType, false⟩
  if response.sequence ≠ sequence then
    throw ⟨"ValueError", "unexpected response sequence 0x" ++ hexInt response.sequence ++
      "; expected 0x" ++ hexInt sequence, false⟩
  orRaise (decoder response)

omit [Sub T] in
/-- A response of the expected type and sequence that is decoded passes. -/
theorem checkResponse_ok {decoder : Frame → Except PyError α} {response : Frame} {sequence : ℤ}
    {a : α}
    (htype : response.frameType = q.responseType) (hseq : response.sequence = sequence)
    (hdecode : decoder response = .ok a) : checkResponse q sequence decoder response p = .ok a p := by
  unfold checkResponse
  rw [if_neg (not_not.mpr htype), if_neg (not_not.mpr hseq), hdecode]
  rfl

omit [Sub T] in
/-- One of another sequence raises, and what it raises is no timeout. -/
theorem checkResponse_mismatch (decoder : Frame → Except PyError α) {response : Frame}
    {sequence : ℤ} (hseq : response.sequence ≠ sequence) :
    ∃ e, checkResponse q sequence decoder response p = .error e p ∧ e.serialTimeout = false := by
  unfold checkResponse
  by_cases htype : response.frameType = q.responseType
  · rw [if_neg (not_not.mpr htype), if_pos hseq]
    exact ⟨_, rfl, rfl⟩
  · rw [if_pos htype]
    exact ⟨_, rfl, rfl⟩

omit [Sub T] in
/-- **A request reads what is in front**, and the counter advances. -/
theorem request_eq (decoder : Frame → Except PyError α) {outcome : Except PyException Frame}
    (hp : p.At rx s) (hq : q.requestType ≤ 255)
    (hread : readProtocolFrame (rx ++ device p.link.writes (requestBytes q s)) = (outcome, rest)) :
    ∃ p', p'.At rest (s + 1) ∧
      request (portPeripherals device now) q.requestType q.responseType decoder p =
        match outcome with
        | .ok response => checkResponse q s.toNat decoder response p'
        | .error e => .error e p' := by
  obtain ⟨rfl, hseq⟩ := hp
  have hdata := encodeFrame_request (s := s) hq
  simp only [request, nextSequence, orRaise, callLink, bind, EStateM.bind]
  rw [hseq, hdata]
  simp only [portPeripherals, LinkM.onPort]
  rw [hread]
  rcases outcome with e | response
  · refine ⟨_, ?_, rfl⟩
    exact ⟨rfl, nextOctet_toNat s⟩
  · refine ⟨_, ?_, rfl⟩
    exact ⟨rfl, nextOctet_toNat s⟩

/-! ## A cycle that fails at its first request -/

/-- The first query of a cycle. -/
def commQuery : Query := ⟨typeGetCommStatus, typeCommStatus⟩

/-- The bytes that answer the first request of a cycle. -/
def Poller.firstAnswer (p : Poller Port limits) (s : Byte) : List Byte :=
  device p.link.writes (requestBytes commQuery s)

/-- The store is told, and the buffer does not change. -/
theorem callStore_at (call : T → StoreCall T) (hp : p.At rx s) :
    ∃ p', callStore (portPeripherals device now) clock call p = .ok () p' ∧ p'.At rx s := by
  refine ⟨_, rfl, ?_⟩
  exact ⟨hp.rx, hp.sequence⟩

/-- **A cycle that failed purges the port** after a timeout, and only then. -/
theorem pollFailed_at {e : PyException} (hp : p.At rx s) :
    ∃ p', pollFailed (portPeripherals device now) clock e p = .ok false p' ∧
      p'.At (if e.serialTimeout then [] else rx) s := by
  unfold pollFailed
  obtain ⟨p₁, hstore, h₁⟩ := callStore_at device now clock (.failure e.message) hp
  by_cases ht : e.serialTimeout = true
  · simp only [if_pos ht, bind, EStateM.bind, hstore]
    -- the recovery of the port raises nothing
    refine ⟨_, rfl, ?_⟩
    exact ⟨rfl, h₁.sequence⟩
  · simp only [if_neg ht, bind, EStateM.bind, hstore]
    exact ⟨p₁, rfl, h₁⟩

/-- What the first request raises ends the cycle there. -/
theorem pollOnce_of_request_error {p₁ : Poller Port limits} {e : PyException}
    (hrequest : request (portPeripherals device now) typeGetCommStatus typeCommStatus
      decodeCommStatus p = .error e p₁) (hp : p₁.At rest (s + 1)) :
    ∃ p', pollOnce (portPeripherals device now) clock p = .ok false p' ∧
      p'.At (if e.serialTimeout then [] else rest) (s + 1) := by
  obtain ⟨p', hfailed, hp'⟩ := pollFailed_at device now clock (e := e) hp
  refine ⟨p', ?_, hp'⟩
  unfold pollOnce pollStatuses
  simp only [bind, EStateM.bind, hrequest]
  exact hfailed

/-- **What a cycle leaves when its first read times out**: nothing. -/
theorem pollOnce_timeout (hp : p.At rx s)
    (hread : ∃ e, readProtocolFrame (rx ++ p.firstAnswer device s) = (.error e, []) ∧
      e.serialTimeout = true) :
    ∃ p', pollOnce (portPeripherals device now) clock p = .ok false p' ∧ p'.At [] (s + 1) := by
  obtain ⟨e, hread, ht⟩ := hread
  obtain ⟨p₁, hp₁, hrequest⟩ := request_eq device now (q := commQuery)
    decodeCommStatus hp (by decide) hread
  obtain ⟨p', hpoll, hp'⟩ := pollOnce_of_request_error device now clock hrequest hp₁
  rw [if_pos ht] at hp'
  exact ⟨p', hpoll, hp'⟩

/-- A chunk that is no response to the sequence. -/
def Unmatched (s : Byte) (x : List Byte) : Prop :=
  Chunk x ∧ ∀ frame, decodeFrame x = .ok frame → frame.sequence ≠ s.toNat

/-- **What a cycle leaves when its first read is refused**: all that is
buffered after the chunk. -/
theorem pollOnce_refused (hp : p.At rx s) (hx : Unmatched s x)
    (hrx : rx ++ p.firstAnswer device s = x ++ rest) :
    ∃ p', pollOnce (portPeripherals device now) clock p = .ok false p' ∧ p'.At rest (s + 1) := by
  have hread : readProtocolFrame (rx ++ p.firstAnswer device s) = (readChunk x, rest) := by
    rw [hrx]
    exact readProtocolFrame_chunk hx.1
  obtain ⟨p₁, hp₁, hrequest⟩ := request_eq device now (q := commQuery)
    decodeCommStatus hp (by decide) hread
  have herror : ∃ e, request (portPeripherals device now) typeGetCommStatus typeCommStatus
      decodeCommStatus p = .error e p₁ ∧ e.serialTimeout = false := by
    rcases hout : readChunk x with e | frame
    · rw [hout] at hrequest
      exact ⟨e, hrequest, readChunk_error hout⟩
    · rw [hout] at hrequest
      obtain ⟨e, hcheck, ht⟩ := checkResponse_mismatch (q := commQuery) (p := p₁)
        decodeCommStatus (hx.2 frame (readChunk_ok hout))
      exact ⟨e, hrequest.trans hcheck, ht⟩
  obtain ⟨e, herror, ht⟩ := herror
  obtain ⟨p', hpoll, hp'⟩ := pollOnce_of_request_error device now clock herror hp₁
  rw [ht] at hp'
  exact ⟨p', hpoll, hp'⟩

/-! ## A cycle from an empty buffer -/

/-- The bytes of a frame are a chunk: the reader takes them all, and no
more. -/
theorem chunk_of_decodeFrame {frame : Frame} (h : decodeFrame x = .ok frame) :
    Chunk x ∧ readChunk x = .ok frame := by
  have hlen : announced x ≤ maxPayload ∧ x.length = 6 + announced x := by
    obtain ⟨type, sequence, payload, hp, rfl, -⟩ := decodeFrame_eq_ok_iff.mp h
    have hannounced : announced (frameBytes type sequence payload) = payload.length := by
      unfold maxPayload at hp
      show (BitVec.ofNat 8 payload.length).toNat = _
      rw [BitVec.toNat_ofNat, Nat.mod_eq_of_lt (by omega)]
    rw [hannounced, length_frameBytes]
    exact ⟨hp, rfl⟩
  constructor
  · unfold Chunk readSize
    rw [if_neg (Nat.not_lt.mpr hlen.1), hlen.2]
  · unfold readChunk
    rw [if_neg (Nat.not_lt.mpr hlen.1), h]

variable {device now clock}

variable (now) in
omit [Sub T] in
/-- **A request to an empty port** is answered by a correct device, and the
port is empty again. -/
theorem request_ok (hd : device.Correct) (hq : (q, decodes) ∈ dashboardResponses)
    (decoder : Frame → Except PyError α)
    (hdecoder : ∀ frame, decodes frame = true → ∃ a, decoder frame = .ok a) (hp : p.At [] s) :
    ∃ a p', request (portPeripherals device now) q.requestType q.responseType decoder p =
      .ok a p' ∧ p'.At [] (s + 1) := by
  have htype : ∀ r ∈ dashboardResponses, r.1.requestType ≤ 255 := by decide
  have hdata := encodeFrame_request (s := s) (htype _ hq)
  obtain ⟨response, hanswer, hmatch⟩ := hd q decodes hq s.toNat _ p.link.writes hdata
  obtain ⟨hchunk, hread⟩ := chunk_of_decodeFrame hanswer
  have hall := @readProtocolFrame_chunk _ [] hchunk
  rw [List.append_nil, hread] at hall
  obtain ⟨p', hp', hrequest⟩ := request_eq device now decoder hp (htype _ hq) hall
  obtain ⟨a, ha⟩ := hdecoder response hmatch.decoded
  exact ⟨a, p', hrequest.trans (checkResponse_ok hmatch.type hmatch.sequence ha), hp'⟩

/-- **An action that goes on**: from an empty port it returns, and leaves the
port empty again. -/
def Continues {α : Type} (m : PollM Port limits α) : Prop :=
  ∀ (p : Poller Port limits) s, p.At [] s → ∃ a p' s', m p = .ok a p' ∧ p'.At [] s'

omit [Sub T] in
/-- Two actions that go on do so one after the other, as the second finds the
port empty again. -/
theorem Continues.bind {β : Type} {m : PollM Port limits α} {f : α → PollM Port limits β}
    (hm : Continues m) (hf : ∀ a, Continues (f a)) : Continues (m >>= f) := by
  intro p s hp
  obtain ⟨a, p₁, s₁, hrun, hp₁⟩ := hm p s hp
  obtain ⟨b, p₂, s₂, hrest, hp₂⟩ := hf a p₁ s₁ hp₁
  refine ⟨b, p₂, s₂, ?_, hp₂⟩
  simp only [Bind.bind, EStateM.bind, hrun, hrest]

omit [Sub T] in
/-- A return goes on, for it does not touch the port. -/
theorem continues_pure (a : α) : Continues (pure a : PollM Port limits α) :=
  fun p s hp => ⟨a, p, s, rfl, hp⟩

omit [Sub T] in
/-- **A request of the dashboard**, to a correct device and an empty port,
leaves it empty again. -/
theorem continues_request (hd : device.Correct) (decoder : Frame → Except PyError α)
    (hq : (q, fun frame => (decoder frame).isOk) ∈ dashboardResponses) :
    Continues (request (portPeripherals device now) q.requestType q.responseType decoder :
      PollM Port limits α) := by
  intro p s hp
  have hdecoder : ∀ frame, (decoder frame).isOk = true → ∃ a, decoder frame = .ok a := by
    intro frame h
    rcases hout : decoder frame with e | a
    · rw [hout] at h
      cases h
    · exact ⟨a, rfl⟩
  obtain ⟨a, p', hrequest, hp'⟩ := request_ok now hd hq decoder hdecoder hp
  exact ⟨a, p', s + 1, hrequest, hp'⟩

omit [Sub T] in
/-- **All requests of a cycle go on**, one after the other, to a correct
device. -/
theorem continues_pollStatuses (hd : device.Correct) :
    Continues (pollStatuses (portPeripherals device now) : PollM Port limits Telemetry) := by
  have hrequest : ∀ {α : Type} (decoder : Frame → Except PyError α) (q : Query),
      (q, fun frame => (decoder frame).isOk) ∈ dashboardResponses →
      Continues (request (portPeripherals device now) q.requestType q.responseType decoder :
        PollM Port limits α) :=
    fun decoder q hq => continues_request hd decoder hq
  unfold pollStatuses
  refine (hrequest decodeCommStatus commQuery ?_).bind fun comm =>
    (hrequest decodeTimingStatus ⟨typeGetTimingStatus, typeTimingStatus⟩ ?_).bind fun timing =>
    (hrequest decodeJitterStatus ⟨typeGetJitterStatus, typeJitterStatus⟩ ?_).bind fun jitter =>
    (hrequest decodeRuntimeMemoryStatus
      ⟨typeGetRuntimeMemoryStatus, typeRuntimeMemoryStatus⟩ ?_).bind fun runtimeMemory =>
    (hrequest decodeCpuLoadStatus ⟨typeGetCpuLoadStatus, typeCpuLoadStatus⟩ ?_).bind fun cpu =>
    (hrequest decodeOverrunStatus ⟨typeGetOverrunStatus, typeOverrunStatus⟩ ?_).bind
      fun overruns =>
    (hrequest decodeWatchdogStatus ⟨typeGetWatchdogStatus, typeWatchdogStatus⟩ ?_).bind
      fun watchdog => continues_pure _
  all_goals simp [dashboardResponses, dashboardQueries, commQuery]

/-- **A cycle from an empty buffer succeeds**, and leaves it empty. -/
theorem pollOnce_empty (hd : device.Correct) (hp : p.At [] s) :
    ∃ p' s', pollOnce (portPeripherals device now) clock p = .ok true p' ∧ p'.At [] s' := by
  obtain ⟨telemetry, p₁, s₁, hrun, hp₁⟩ := continues_pollStatuses hd p s hp
  obtain ⟨p', hstore, hp'⟩ := callStore_at device now clock (.success telemetry) hp₁
  refine ⟨p', s₁, ?_, hp'⟩
  unfold pollOnce pollSucceeded
  rw [hrun]
  simp only [Bind.bind, EStateM.bind, hstore]
  rfl

end SentryCell.Host
