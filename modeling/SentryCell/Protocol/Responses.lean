import SentryCell.Protocol.Slots
/-!
# Responses

What a full slot is answered by: `protocol_get_response`, the frames of
the `protocol_send_…` functions and the flags they clear. `Documented`
says which response answers which request, and `answers_of_outgoing`
that no slot is answered by any other.
-/

namespace SentryCell

open Word

/-! ## The response functions -/

/-- `protocol_get_response`. -/
def protocolGetResponse (s : Slots) : Option ProtocolFrame :=
  if s.responsePending = 0 then none else some s.pendingFrame

/-- `protocol_response_sent`. -/
def protocolResponseSent (s : Slots) : Slots := { s with responsePending := 0 }

/-- The `…_requested` functions: the sequence to answer. -/
def protocolStatusRequested (kind : StatusKind) (s : Slots) : Option Byte :=
  if s.requestPending kind = 0 then none else some (s.sequence kind)

/-- A frame of a type, a sequence and payload bytes. The local array is
not initialised past them, and nothing reads it there. -/
def statusFrame (kind : StatusKind) (sequence : Byte) (payload : List Byte) : ProtocolFrame where
  type := kind.type
  sequence := sequence
  length := BitVec.ofNat 8 payload.length
  payload i := payload.getD i 0

/-- The flag of a status whose frame was enqueued. -/
def clearRequest (kind : StatusKind) (s : Slots) : Slots :=
  { s with requestPending := Function.update s.requestPending kind 0 }

/-- A 16-bit value, low byte first. -/
def word16Bytes (v : Word16) : List Byte := [v.setWidth 8, (v >>> 8).setWidth 8]

/-- A 32-bit value, low byte first. -/
def word32Bytes (v : Word32) : List Byte :=
  [v.setWidth 8, (v >>> 8).setWidth 8, (v >>> 16).setWidth 8, (v >>> 24).setWidth 8]

/-- The payload of the three statuses of one word for each task. -/
def taskWords (actuator control sensorSafety communication : Word16) : List Byte :=
  word16Bytes actuator ++ word16Bytes control ++ word16Bytes sensorSafety ++
    word16Bytes communication

/-! ## The nine slots -/

/-- The slots a response is served from: that of the immediate responses,
and one for each status. -/
abbrev Slot := Option StatusKind

/-- The length of the payload of a status. -/
def StatusKind.payloadLength : StatusKind → ℕ
  | .commStatus => 3
  | .timingStatus => 8
  | .jitterStatus => 8
  | .runtimeMemoryStatus => 6
  | .cpuLoadStatus => 8
  | .overrunStatus => 8
  | .resetCause => 1
  | .watchdogStatus => 1

/-- Whether a slot holds a request that is not answered yet. -/
def Slots.full (s : Slots) : Slot → Prop
  | none => s.responsePending ≠ 0
  | some kind => s.requestPending kind ≠ 0

/-- **The frames a full slot may be answered by.** -/
def Outgoing (s : Slots) : Slot → ProtocolFrame → Prop
  | none, frame => s.responsePending ≠ 0 ∧ frame = s.pendingFrame
  | some kind, frame => s.requestPending kind ≠ 0 ∧ ∃ payload : List Byte,
      payload.length = kind.payloadLength ∧ frame = statusFrame kind (s.sequence kind) payload

/-- The slot once its answer is enqueued. -/
def Slots.sent (s : Slots) : Slot → Slots
  | none => protocolResponseSent s
  | some kind => clearRequest kind s

/-- The payload of each status fits into a frame. -/
theorem StatusKind.payloadLength_le (kind : StatusKind) : kind.payloadLength ≤ 8 := by
  rcases kind <;> decide

/-- A frame that is on its way out of a slot still takes it. -/
theorem Outgoing.full {s : Slots} {k : Slot} {frame : ProtocolFrame} (h : Outgoing s k frame) :
    s.full k := by
  rcases k with _ | kind
  · exact h.1
  · exact h.1

/-! ## Requests and their responses -/

/-- The request types the firmware supports. -/
def supportedTypes : List Byte :=
  [protocolTypePing, protocolTypeEcho, protocolTypeGetCommStatus, protocolTypeGetTimingStatus,
    protocolTypeGetJitterStatus, protocolTypeGetRuntimeMemoryStatus,
    protocolTypeGetCpuLoadStatus, protocolTypeGetOverrunStatus, protocolTypeGetResetCause,
    protocolTypeInjectWatchdogBlock, protocolTypeGetWatchdogStatus]

/-- A length its type does not allow: an `ECHO` without payload, or any
other with one. -/
def ProtocolFrame.WrongLength (frame : ProtocolFrame) : Prop :=
  if frame.type = protocolTypeEcho then frame.length = 0 else frame.length ≠ 0

/-- **Which response answers which request**, as far as the request alone
determines it. Of a status that is the type and the length: what it reports
is `StatusKind.report`, of the state it was collected from. -/
inductive Documented (request response : ProtocolFrame) : Prop
  | pong (ht : request.type = protocolTypePing) (hl : request.length = 0)
      (hr : response.type = protocolTypePong) (hd : response.data = [])
  | ack (ht : request.type = protocolTypeEcho)
      (hl : 1 ≤ request.length.toNat ∧ request.length.toNat ≤ 8)
      (hr : response.type = protocolTypeAck) (hd : response.data = request.data)
  | invalidLength (ht : request.type ∈ supportedTypes) (hl : request.WrongLength)
      (hr : response.type = protocolTypeNack) (hd : response.data = [protocolNackInvalidLength])
  | unsupportedType (ht : request.type ∉ supportedTypes)
      (hr : response.type = protocolTypeNack) (hd : response.data = [protocolNackUnsupportedType])
  | status (kind : StatusKind) (ht : request.type = kind.getType) (hl : request.length = 0)
      (hr : response.type = request.type ||| 0x80#8)
      (hd : response.data.length = kind.payloadLength)

/-- The slot a frame is answered from, if it is answered at all. -/
def ProtocolFrame.slot (frame : ProtocolFrame) : Option Slot :=
  match frame.request with
  | .status kind => some (some kind)
  | .block => none
  | _ => some none

/-- **A slot holds a request**: its flag is set, and what it needs for the
answer is there, unchanged. -/
def Slots.Stores (s : Slots) (request : ProtocolFrame) : Slot → Prop
  | none => s.responsePending ≠ 0 ∧
      ∃ old, immediateResponse request old = some s.pendingFrame
  | some kind => s.requestPending kind ≠ 0 ∧ s.sequence kind = request.sequence

/-- A slot that stores a request is taken. -/
theorem Slots.Stores.full {s : Slots} {request : ProtocolFrame} {k : Slot}
    (h : s.Stores request k) : s.full k := by
  rcases k with _ | kind
  · exact h.1
  · exact h.1

/-- Bytes that answer a request: the frame of a documented response with
the request's sequence. -/
def Answers (request : ProtocolFrame) (data : List Byte) : Prop :=
  ∃ response : ProtocolFrame, response.length.toNat ≤ 8 ∧ data = encodedFrame response ∧
    response.sequence = request.sequence ∧ Documented request response

variable {frame request response : ProtocolFrame} {kind : StatusKind} {s : Slots} {k : Slot}
variable {old : ℕ → Byte}

/-- The slot of a status is asked for by its GET request alone. -/
theorem slot_eq_status_iff : frame.slot = some (some kind) ↔ frame.request = .status kind := by
  unfold ProtocolFrame.slot
  rcases frame.request with _ | _ | _ | _ | _ | _ <;> simp

/-- The response slot takes what has an immediate response. -/
theorem slot_eq_response_iff :
    frame.slot = some none ↔ ∃ response, immediateResponse frame old = some response := by
  unfold ProtocolFrame.slot immediateResponse
  rcases frame.request with _ | _ | _ | _ | _ | _ <;> simp

/-- Only the request to block asks for no slot. -/
theorem slot_eq_none_iff : frame.slot = none ↔ frame.request = .block := by
  unfold ProtocolFrame.slot
  rcases frame.request with _ | _ | _ | _ | _ | _ <;> simp

/-- What the types of the requests that are not for a status are. -/
theorem mem_supportedTypes_of_ofGetType {type : Byte}
    (h : StatusKind.ofGetType type = some kind) : type ∈ supportedTypes := by
  rw [← getType_of_ofGetType h]
  rcases kind <;> decide

theorem getType_ne_echo (kind : StatusKind) : kind.getType ≠ protocolTypeEcho := by
  rcases kind <;> decide

/-- The type of a status is that of its request, with the high bit set. -/
theorem type_eq_getType_or (kind : StatusKind) : kind.type = kind.getType ||| 0x80#8 := by
  rcases kind <;> decide

/-- What each request says of the frame that makes it. -/
def Request.Meaning (frame : ProtocolFrame) : Request → Prop
  | .status kind => frame.type = kind.getType ∧ frame.length = 0
  | .block => frame.type = protocolTypeInjectWatchdogBlock ∧ frame.length = 0
  | .ping => frame.type = protocolTypePing ∧ frame.length = 0
  | .echo => frame.type = protocolTypeEcho ∧ frame.length ≠ 0
  | .badLength => frame.type ∈ supportedTypes ∧ frame.WrongLength
  | .unsupported => frame.type ∉ supportedTypes

/-- A type that is none of the eleven. -/
theorem notMem_supportedTypes {type : Byte} (hk : StatusKind.ofGetType type = none)
    (hb : type ≠ protocolTypeInjectWatchdogBlock) (hp : type ≠ protocolTypePing)
    (he : type ≠ protocolTypeEcho) : type ∉ supportedTypes := by
  have hget : ∀ kind : StatusKind, type ≠ kind.getType := by
    intro kind ht
    rw [ht, ofGetType_getType] at hk
    cases hk
  simp only [supportedTypes, List.mem_cons, List.not_mem_nil, or_false, not_or]
  exact ⟨hp, he, hget .commStatus, hget .timingStatus, hget .jitterStatus,
    hget .runtimeMemoryStatus, hget .cpuLoadStatus, hget .overrunStatus, hget .resetCause, hb,
    hget .watchdogStatus⟩

/-- **The request of a frame means what its name says.** -/
theorem request_meaning (frame : ProtocolFrame) : frame.request.Meaning frame := by
  have hwrong : frame.type ≠ protocolTypeEcho → frame.length ≠ 0 → frame.WrongLength := by
    intro hne hl
    unfold ProtocolFrame.WrongLength
    rw [if_neg hne]
    exact hl
  rcases hk : StatusKind.ofGetType frame.type with _ | kind
  · rw [request_of_none hk]
    by_cases hb : frame.type = protocolTypeInjectWatchdogBlock
    · rw [if_pos hb]
      by_cases hl : frame.length = 0
      · rw [if_pos hl]
        exact ⟨hb, hl⟩
      · rw [if_neg hl]
        exact ⟨by rw [hb]; decide, hwrong (by rw [hb]; decide) hl⟩
    rw [if_neg hb]
    by_cases hp : frame.type = protocolTypePing
    · rw [if_pos hp]
      by_cases hl : frame.length = 0
      · rw [if_pos hl]
        exact ⟨hp, hl⟩
      · rw [if_neg hl]
        exact ⟨by rw [hp]; decide, hwrong (by rw [hp]; decide) hl⟩
    rw [if_neg hp]
    by_cases he : frame.type = protocolTypeEcho
    · rw [if_pos he]
      by_cases hl : frame.length = 0
      · rw [if_pos hl]
        refine ⟨by rw [he]; decide, ?_⟩
        unfold ProtocolFrame.WrongLength
        rw [if_pos he]
        exact hl
      · rw [if_neg hl]
        exact ⟨he, hl⟩
    · rw [if_neg he]
      exact notMem_supportedTypes hk hb hp he
  · have ht := getType_of_ofGetType hk
    rw [request_of_some hk]
    by_cases hl : frame.length = 0
    · rw [if_pos hl]
      exact ⟨ht.symm, hl⟩
    · rw [if_neg hl]
      exact ⟨mem_supportedTypes_of_ofGetType hk, hwrong (by rw [← ht]; exact getType_ne_echo kind) hl⟩

theorem data_cons_one {type sequence : Byte} {payload : ℕ → Byte} :
    ProtocolFrame.data ⟨type, sequence, 1, payload⟩ = [payload 0] := rfl

/-- **The immediate response is the documented one.** -/
theorem documented_immediate (hlen : request.length.toNat ≤ 8)
    (h : immediateResponse request old = some response) :
    response.length.toNat ≤ 8 ∧ response.sequence = request.sequence ∧
      Documented request response := by
  have hmeaning := request_meaning request
  unfold immediateResponse at h
  rcases hr : request.request with kind | _ | _ | _ | _ | _ <;> rw [hr] at h hmeaning
  · cases h
  · cases h
  · obtain rfl := Option.some.inj h
    exact ⟨Nat.zero_le 8, rfl, .pong hmeaning.1 hmeaning.2 rfl rfl⟩
  · obtain rfl := Option.some.inj h
    have hne : request.length.toNat ≠ 0 := fun h0 => hmeaning.2 (BitVec.eq_of_toNat_eq h0)
    refine ⟨hlen, rfl, .ack hmeaning.1 ⟨by omega, hlen⟩ rfl ?_⟩
    refine List.map_congr_left fun index hi => ?_
    have hlt := List.mem_range.mp hi
    exact if_pos hlt
  · obtain rfl := Option.some.inj h
    refine ⟨Nat.le_add_left 1 7, rfl, .invalidLength hmeaning.1 hmeaning.2 rfl ?_⟩
    rw [data_cons_one, Function.update_self]
  · obtain rfl := Option.some.inj h
    refine ⟨Nat.le_add_left 1 7, rfl, .unsupportedType hmeaning rfl ?_⟩
    rw [data_cons_one, Function.update_self]

/-- The length field says what the payload has. -/
theorem length_statusFrame {sequence : Byte} {payload : List Byte}
    (h : payload.length = kind.payloadLength) :
    (statusFrame kind sequence payload).length.toNat = kind.payloadLength := by
  have hle := kind.payloadLength_le
  show (BitVec.ofNat 8 payload.length).toNat = _
  rw [BitVec.toNat_ofNat, h, Nat.mod_eq_of_lt (by omega)]

/-- What a status carries is the payload it was built with. -/
theorem data_statusFrame {sequence : Byte} {payload : List Byte} (h : payload.length ≤ 8) :
    (statusFrame kind sequence payload).data = payload := by
  have hlen : (BitVec.ofNat 8 payload.length).toNat = payload.length := by
    rw [BitVec.toNat_ofNat, Nat.mod_eq_of_lt (by omega)]
  refine List.ext_getElem ?_ fun i hi hi' => ?_
  · rw [length_data]
    exact hlen
  · simp only [ProtocolFrame.data, statusFrame, List.getElem_map, List.getElem_range,
      List.getD_eq_getElem?_getD, List.getElem?_eq_getElem hi', Option.getD_some]

/-- **A slot is answered by a documented response** to what it holds. -/
theorem answers_of_outgoing (hslot : request.slot = some k) (hst : s.Stores request k)
    (hlen : request.length.toNat ≤ 8) (h : Outgoing s k response) :
    response.length.toNat ≤ 8 ∧ Answers request (encodedFrame response) := by
  rcases k with _ | kind
  · obtain ⟨-, rfl⟩ := h
    obtain ⟨-, old, hresponse⟩ := hst
    obtain ⟨hl, hq, hdoc⟩ := documented_immediate hlen hresponse
    exact ⟨hl, s.pendingFrame, hl, rfl, hq, hdoc⟩
  · obtain ⟨-, payload, hp, rfl⟩ := h
    obtain ⟨ht, hl⟩ := request_eq_status_iff.mp (slot_eq_status_iff.mp hslot)
    have hsize : (statusFrame kind (s.sequence kind) payload).length.toNat =
        kind.payloadLength := length_statusFrame hp
    have hle := kind.payloadLength_le
    refine ⟨by omega, _, by omega, rfl, hst.2, .status kind ht hl ?_ ?_⟩
    · rw [ht]
      exact type_eq_getType_or kind
    · rw [length_data, hsize]

end SentryCell
