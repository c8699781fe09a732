import SentryCell.Firmware.Requests
import SentryCell.Host.SerialLink
import SentryCell.Lib.History
import SentryCell.Lib.Instrument
import SentryCell.Protocol.Gaps
/-!
# The firmware and a host that waits

A host writes a request only once it has read the response to the one
before. `world` is the firmware with such a host at the other end of a
lossless line: the bytes the host writes arrive in order, one receive
interrupt each, and what the firmware writes to `UDR0` the host can read.
The tasks and the other interrupts come in any order, with any readings,
as long as no pass of `communication_task` finds that a candidate timed
out.
-/

namespace SentryCell

open Foreground Word Machine

/-! ## The requests and their responses -/

/-- **A request of the host**: a PING, an ECHO of one to eight bytes, or
one of the eight requests for a status. -/
inductive HostRequest where
  | ping (sequence : Byte)
  | echo (sequence : Byte) (payload : List Byte)
      (h : 1 ≤ payload.length ∧ payload.length ≤ 8)
  | status (kind : StatusKind) (sequence : Byte)

namespace HostRequest

def type : HostRequest → Byte
  | .ping _ => protocolTypePing
  | .echo .. => protocolTypeEcho
  | .status kind _ => kind.getType

def sequence : HostRequest → Byte
  | .ping sequence => sequence
  | .echo sequence .. => sequence
  | .status _ sequence => sequence

def payload : HostRequest → List Byte
  | .ping _ => []
  | .echo _ payload _ => payload
  | .status .. => []

/-- The frame the host encodes. -/
def frame (request : HostRequest) : Host.Frame :=
  ⟨request.type.toNat, request.sequence.toNat, request.payload⟩

/-- Its bytes on the line. -/
def bytes (request : HostRequest) : List Byte :=
  Host.frameBytes request.type request.sequence request.payload

/-- What it asks for. -/
def asks : HostRequest → Request
  | .ping _ => .ping
  | .echo .. => .echo
  | .status kind _ => .status kind

/-- The slot it is answered from. -/
def slot : HostRequest → Slot
  | .ping _ => none
  | .echo .. => none
  | .status kind _ => some kind

/-- **The documented response** to a request: its sequence, and the type
and payload that go with the request. A status reports what the firmware's
counters and records held in `s`, from an execution with the readings `r`. -/
def AnsweredBy (request : HostRequest) (s : Firmware) (r : Readings) (response : Host.Frame) :
    Prop :=
  response.sequence = request.sequence.toNat ∧
    match request with
    | .ping _ => response.frameType = protocolTypePong.toNat ∧ response.payload = []
    | .echo _ payload _ => response.frameType = protocolTypeAck.toNat ∧ response.payload = payload
    | .status kind _ => response.frameType = kind.type.toNat ∧ response.payload = kind.report s r

variable {request : HostRequest} {frame response : ProtocolFrame}

/-- No request has more than eight bytes of payload. -/
theorem length_payload_le (request : HostRequest) : request.payload.length ≤ 8 := by
  rcases request with _ | ⟨_, payload, h⟩ | _
  · exact Nat.zero_le 8
  · exact h.2
  · exact Nat.zero_le 8

/-- The host's encoder takes every request. -/
theorem encodeFrame_frame (request : HostRequest) :
    Host.encodeFrame request.frame = .ok request.bytes :=
  Host.encodeFrame_octets request.length_payload_le

/-- A request takes at most fourteen bytes on the line. -/
theorem length_bytes_le (request : HostRequest) : request.bytes.length ≤ 14 := by
  have hle := request.length_payload_le
  unfold bytes
  rw [Host.length_frameBytes]
  omega

/-- The bytes are one candidate of the stream. -/
def segment (request : HostRequest) : Segment :=
  .complete request.type request.sequence request.payload request.length_payload_le
    (crc8Compute (Host.frameBody request.type request.sequence request.payload))

/-- What a host writes for a request is one complete segment of the parser's
stream. -/
theorem bytes_segment (request : HostRequest) : request.segment.bytes = request.bytes := rfl

/-- **The firmware is handed what the host encoded.** -/
theorem decoded_segment (request : HostRequest) : request.segment.decoded = some request.frame := by
  have hdecode : Host.decodeFrame request.bytes = .ok request.frame :=
    Host.decodeFrame_of_encodeFrame request.encodeFrame_frame
  show (Host.decodeFrame request.bytes).toOption = some request.frame
  rw [hdecode]
  rfl

/-- **The firmware's frame for a request** asks for what the host asks
for. -/
theorem fields_of_toHost (h : frame.toHost = request.frame) :
    frame.type = request.type ∧ frame.sequence = request.sequence ∧
      frame.data = request.payload ∧ frame.length.toNat = request.payload.length := by
  have htype : frame.type.toNat = request.type.toNat :=
    Int.ofNat_inj.mp (congrArg Host.Frame.frameType h)
  have hsequence : frame.sequence.toNat = request.sequence.toNat :=
    Int.ofNat_inj.mp (congrArg Host.Frame.sequence h)
  have hdata : frame.data = request.payload := congrArg Host.Frame.payload h
  refine ⟨BitVec.eq_of_toNat_eq htype, BitVec.eq_of_toNat_eq hsequence, hdata, ?_⟩
  rw [← hdata, length_data]

/-- Its length is one that its type allows. -/
theorem length_of_toHost (h : frame.toHost = request.frame) :
    ¬ frame.WrongLength ∧ (request.payload = [] → frame.length = 0) := by
  obtain ⟨htype, -, -, hlen⟩ := fields_of_toHost h
  have hzero : request.payload = [] → frame.length = 0 := by
    intro hp
    rw [hp] at hlen
    exact BitVec.eq_of_toNat_eq hlen
  refine ⟨?_, hzero⟩
  unfold ProtocolFrame.WrongLength
  rw [htype]
  rcases request with sequence | ⟨sequence, payload, hpayload⟩ | ⟨kind, sequence⟩
  · have hne : protocolTypePing ≠ protocolTypeEcho := by decide
    rw [type, if_neg hne]
    exact not_not.mpr (hzero rfl)
  · have hpos : 1 ≤ frame.length.toNat := hlen ▸ hpayload.1
    rw [type, if_pos rfl]
    intro h0
    rw [h0] at hpos
    exact absurd hpos (by decide)
  · rw [type, if_neg (getType_ne_echo kind)]
    exact not_not.mpr (hzero rfl)

/-- What the parser hands over asks for what the host meant. -/
theorem request_of_toHost (h : frame.toHost = request.frame) : frame.request = request.asks := by
  obtain ⟨htype, -, -, -⟩ := fields_of_toHost h
  obtain ⟨hwrong, hzero⟩ := length_of_toHost h
  rcases request with sequence | ⟨sequence, payload, hpayload⟩ | ⟨kind, sequence⟩
  · have hk : StatusKind.ofGetType frame.type = none := by
      rw [htype]
      rfl
    rw [request_of_none hk, htype]
    exact if_pos (hzero rfl)
  · have hk : StatusKind.ofGetType frame.type = none := by
      rw [htype]
      rfl
    have hne : frame.length ≠ 0 := by
      intro h0
      refine hwrong ?_
      unfold ProtocolFrame.WrongLength
      rw [htype]
      exact h0
    rw [request_of_none hk, htype]
    exact if_neg hne
  · exact request_eq_status_iff.mpr ⟨htype, hzero rfl⟩

/-- What the parser hands over goes to the slot in which the request is
answered. -/
theorem slot_of_toHost (h : frame.toHost = request.frame) : frame.slot = some request.slot := by
  unfold ProtocolFrame.slot
  rw [request_of_toHost h]
  rcases request with _ | _ | _
  · rfl
  · rfl
  · rfl

/-- The type of a request tells which it is. -/
theorem type_eq_iff {kind kind' : StatusKind} : kind.getType = kind'.getType ↔ kind = kind' := by
  constructor
  · intro h
    have hk := ofGetType_getType kind
    rw [h, ofGetType_getType] at hk
    exact (Option.some.inj hk).symm
  · exact congrArg StatusKind.getType

/-- **What the firmware documents is what the host expects**, of a status
with the report for its payload. -/
theorem answeredBy_of_documented {s : Firmware} {r : Readings} (h : frame.toHost = request.frame)
    (hq : response.sequence = frame.sequence) (hdoc : Documented frame response)
    (hreport : ∀ kind sequence, request = .status kind sequence →
      response.data = kind.report s r) : request.AnsweredBy s r response.toHost := by
  obtain ⟨htype, hsequence, hdata, -⟩ := fields_of_toHost h
  have hwrong := (length_of_toHost h).1
  have hq' : response.toHost.sequence = request.sequence.toNat := by
    rw [← hsequence, ← hq]
    rfl
  have hcast : ∀ b : Byte, response.type = b → response.toHost.frameType = b.toNat := by
    rintro b rfl
    rfl
  have hsupported : frame.type ∈ supportedTypes := by
    rw [htype]
    rcases request with _ | _ | ⟨kind, _⟩
    · exact List.mem_cons_self
    · exact List.mem_cons_of_mem _ List.mem_cons_self
    · exact mem_supportedTypes_of_ofGetType (ofGetType_getType kind)
  have hecho : protocolTypeEcho ≠ protocolTypePing := by decide
  have hping : ∀ kind : StatusKind, kind.getType ≠ protocolTypePing := by
    intro kind
    rcases kind <;> decide
  refine ⟨hq', ?_⟩
  rcases hdoc with ⟨ht, -, hr, hd⟩ | ⟨ht, -, hr, hd⟩ | ⟨-, hl, -, -⟩ | ⟨ht, -, -⟩ |
    ⟨kind, ht, -, hr, hd⟩
  · rcases request with _ | _ | ⟨kind, _⟩
    · exact ⟨hcast _ hr, hd⟩
    · exact absurd (htype.symm.trans ht) hecho
    · exact absurd (htype.symm.trans ht) (hping kind)
  · rcases request with _ | _ | ⟨kind, _⟩
    · exact absurd (htype.symm.trans ht) hecho.symm
    · exact ⟨hcast _ hr, hd.trans hdata⟩
    · exact absurd (htype.symm.trans ht) (getType_ne_echo kind)
  · exact absurd hl hwrong
  · exact absurd hsupported ht
  · rcases request with _ | _ | ⟨kind', _⟩
    · exact absurd (htype.symm.trans ht) (hping kind).symm
    · exact absurd (htype.symm.trans ht) (getType_ne_echo kind).symm
    · obtain rfl : kind' = kind := type_eq_iff.mp (htype.symm.trans ht)
      refine ⟨hcast _ ?_, hreport kind' _ rfl⟩
      rw [type_eq_getType_or, ← ht, ← hr]

end HostRequest

/-! ## The world -/

/-- **The host and the line**: what it wrote that has not arrived, what
arrived from the firmware that it has not read, the request it waits for
the response to, and its transactions, oldest first. -/
structure HostSide where
  toMcu : List Byte
  fromMcu : List Byte
  awaiting : Option HostRequest
  transactions : List (HostRequest × Host.Frame)

/-- A host that has written nothing. -/
def HostSide.start : HostSide := ⟨[], [], none, []⟩

/-- What can come between two accesses: the next byte of the line arrives,
another interrupt, the host writes a request, and `read_protocol_frame`
returns. -/
inductive WorldInterrupt where
  | arrive
  | interrupt (x : Interrupt)
  | write (request : HostRequest)
  | read

/-- **What it does**, where it can come. The host writes when it awaits no
response, and a call of the reader returns when its bytes are there. -/
def worldEnv : WorldInterrupt → Firmware × HostSide → Option (Firmware × HostSide)
  | .arrive, (s, h) =>
    match h.toMcu with
    | [] => none
    | byte :: rest =>
      ((Interrupt.usartRx byte).handler s).map fun s' => (s', { h with toMcu := rest })
  | .interrupt (.usartRx _), _ => none
  | .interrupt x, (s, h) =>
    (x.handler s).map fun s' =>
      (s', { h with fromMcu := h.fromMcu ++ s'.uart.tx.udr0.drop s.uart.tx.udr0.length })
  | .write request, (s, h) =>
    match h.awaiting, Host.encodeFrame request.frame with
    | none, .ok data => some (s, { h with toMcu := h.toMcu ++ data, awaiting := some request })
    | _, _ => none
  | .read, (s, h) =>
    match h.awaiting, Host.readProtocolFrame h.fromMcu with
    | some request, (.ok response, rest) =>
      some (s, { h with
        fromMcu := rest
        awaiting := none
        transactions := h.transactions ++ [(request, response)] })
    | _, _ => none

/-- **The world.** `protocol_check_timeout` is the first access of the
body of `communication_task` and nothing before it touches the parser, so
what it will see is known where the pass is dispatched. -/
def world : Machine (Firmware × HostSide) Dispatch Unit WorldInterrupt where
  task d := d.program.zoom .first
  ready d t := decide (d.task = .communication → ¬ t.1.protocol.TimedOut d.readings.nowMs)
  env := worldEnv

abbrev WorldConfig := Config (Firmware × HostSide) Dispatch Unit
abbrev WorldEvent := Event Dispatch WorldInterrupt

/-- The world where the firmware has run and the host has not. -/
def worldStart (c : FirmwareConfig) : WorldConfig := liftConfig .first (c.state, .start) c

/-- The requests written in a run, in order. -/
def writtenRequests (es : List WorldEvent) : List HostRequest :=
  es.filterMap fun e => match e with
    | .env (.write request) => some request
    | _ => none

/-- The requests written so far: those answered, and the one that is not. -/
def HostSide.requests (h : HostSide) : List HostRequest :=
  h.transactions.map Prod.fst ++ h.awaiting.toList

variable {s s' : Firmware} {h h' : HostSide} {t t' : Firmware × HostSide}

/-- **What the environment does**, by what it changes. -/
inductive WorldStep (s : Firmware) (h : HostSide) :
    WorldInterrupt → Firmware → HostSide → Prop
  | arrive (byte : Byte) (rest : List Byte) (hline : h.toMcu = byte :: rest) :
      WorldStep s h .arrive (Firmware.rxLens.set (usartRxVect byte s.uart.rx) s)
        { h with toMcu := rest }
  | send : WorldStep s h (.interrupt .usartUdre)
      (Firmware.txLens.set (usartUdreVect s.uart.tx) s)
      { h with
        fromMcu := h.fromMcu ++ (usartUdreVect s.uart.tx).udr0.drop s.uart.tx.udr0.length }
  | other (x : Interrupt) (s' : Firmware) (hu : s'.uart = s.uart)
      (hp : s'.protocol = s.protocol) (ha : s'.accepted = s.accepted)
      (hk : KeepsReports s.profiler s'.profiler) : WorldStep s h (.interrupt x) s' h
  | write (request : HostRequest) (ha : h.awaiting = none) :
      WorldStep s h (.write request) s
        { h with toMcu := h.toMcu ++ request.bytes, awaiting := some request }
  | read (request : HostRequest) (response : Host.Frame) (rest : List Byte)
      (ha : h.awaiting = some request)
      (hr : Host.readProtocolFrame h.fromMcu = (.ok response, rest)) :
      WorldStep s h .read s { h with
        fromMcu := rest
        awaiting := none
        transactions := h.transactions ++ [(request, response)] }

/-- An interrupt that the line takes no part in. -/
theorem worldStep_of_handler {x : Interrupt} (hx : x.handler s = some s')
    (hne : ∀ byte, x ≠ .usartRx byte) :
    WorldStep s h (.interrupt x) s' { h with
      fromMcu := h.fromMcu ++ s'.uart.tx.udr0.drop s.uart.tx.udr0.length } := by
  have hk := keepsReports_of_handler hx
  have hsame : { h with fromMcu := h.fromMcu ++
      s.uart.tx.udr0.drop s.uart.tx.udr0.length } = h := by
    rw [List.drop_length, List.append_nil]
  rcases x with byte | _ | _ | tick | _
  · exact absurd rfl (hne byte)
  · obtain ⟨-, he⟩ := Option.ite_none_right_eq_some.mp hx
    obtain rfl := Option.some.inj he
    exact .send
  · obtain ⟨-, he⟩ := Option.ite_none_right_eq_some.mp hx
    obtain rfl := Option.some.inj he
    rw [hsame]
    exact .other _ _ rfl rfl rfl hk
  · obtain ⟨-, he⟩ := Option.ite_none_right_eq_some.mp hx
    obtain rfl := Option.some.inj he
    rw [hsame]
    exact .other _ _ rfl rfl rfl hk
  · obtain rfl := Option.some.inj hx
    rw [hsame]
    exact .other _ _ rfl rfl rfl hk

theorem worldStep_of_env {x : WorldInterrupt} (hx : worldEnv x (s, h) = some (s', h')) :
    WorldStep s h x s' h' := by
  rcases x with _ | x | request | _
  · rcases hline : h.toMcu with _ | ⟨byte, rest⟩
    · simp only [worldEnv, hline, reduceCtorEq] at hx
    · simp only [worldEnv, hline] at hx
      obtain ⟨s₁, hs, he⟩ := Option.map_eq_some_iff.mp hx
      obtain ⟨rfl, rfl⟩ := Prod.mk.inj he
      obtain ⟨-, hset⟩ := Option.ite_none_right_eq_some.mp hs
      obtain rfl := Option.some.inj hset
      exact .arrive byte rest hline
  · by_cases hrx : ∃ byte, x = .usartRx byte
    · obtain ⟨byte, rfl⟩ := hrx
      cases hx
    · have hne : ∀ byte, x ≠ .usartRx byte := fun byte he => hrx ⟨byte, he⟩
      have henv : worldEnv (.interrupt x) (s, h) = (x.handler s).map fun s' =>
          (s', { h with
            fromMcu := h.fromMcu ++ s'.uart.tx.udr0.drop s.uart.tx.udr0.length }) := by
        rcases x with byte | _ | _ | _ | _
        · exact absurd rfl (hne byte)
        · rfl
        · rfl
        · rfl
        · rfl
      rw [henv] at hx
      obtain ⟨s₁, hs, he⟩ := Option.map_eq_some_iff.mp hx
      obtain ⟨rfl, rfl⟩ := Prod.mk.inj he
      exact worldStep_of_handler hs hne
  · rcases ha : h.awaiting with _ | _
    · simp only [worldEnv, ha, request.encodeFrame_frame, Option.some.injEq, Prod.mk.injEq] at hx
      obtain ⟨rfl, rfl⟩ := hx
      exact .write request ha
    · simp only [worldEnv, ha, reduceCtorEq] at hx
  · rcases ha : h.awaiting with _ | request
    · simp only [worldEnv, ha, reduceCtorEq] at hx
    · rcases hr : Host.readProtocolFrame h.fromMcu with ⟨_ | response, rest⟩
      · simp only [worldEnv, ha, hr, reduceCtorEq] at hx
      · simp only [worldEnv, ha, hr, Option.some.injEq, Prod.mk.injEq] at hx
        obtain ⟨rfl, rfl⟩ := hx
        exact .read request response rest ha hr

/-- **The transactions account for the requests**: a request is written
once, and stays in its place. -/
theorem requests_of_worldStep {x : WorldInterrupt} (hstep : WorldStep s h x s' h') :
    h'.requests = h.requests ++ writtenRequests [.env x] := by
  rcases hstep with _ | _ | _ | ⟨request, ha⟩ | ⟨request, response, rest, ha, -⟩
  · exact (List.append_nil _).symm
  · exact (List.append_nil _).symm
  · exact (List.append_nil _).symm
  · simp [HostSide.requests, writtenRequests, ha]
  · simp [HostSide.requests, writtenRequests, ha]

end SentryCell
