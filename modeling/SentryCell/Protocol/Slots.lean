import SentryCell.Protocol.Frame
import Mathlib.Logic.Function.Basic
/-!
# Accepted requests and the slots that hold them

`protocol_handle_frame` of `firmware/protocol/protocol.c`, on the static
variables it writes: one slot for the immediate responses, a flag and a
sequence for each of the eight status requests, and the watchdog-block
flag. The eight status branches are one definition in the kind of status;
`protocolHandleFrame_eq` says what a frame does by what it requests.
-/

namespace SentryCell

def protocolTypePing : Byte := 0x01#8
def protocolTypeEcho : Byte := 0x02#8
def protocolTypeGetCommStatus : Byte := 0x03#8
def protocolTypeGetTimingStatus : Byte := 0x04#8
def protocolTypeGetJitterStatus : Byte := 0x05#8
def protocolTypeGetRuntimeMemoryStatus : Byte := 0x06#8
def protocolTypeGetCpuLoadStatus : Byte := 0x07#8
def protocolTypeGetOverrunStatus : Byte := 0x08#8
def protocolTypeGetResetCause : Byte := 0x09#8
def protocolTypeInjectWatchdogBlock : Byte := 0x0A#8
def protocolTypeGetWatchdogStatus : Byte := 0x0B#8
def protocolTypePong : Byte := 0x81#8
def protocolTypeCommStatus : Byte := 0x83#8
def protocolTypeTimingStatus : Byte := 0x84#8
def protocolTypeJitterStatus : Byte := 0x85#8
def protocolTypeRuntimeMemoryStatus : Byte := 0x86#8
def protocolTypeCpuLoadStatus : Byte := 0x87#8
def protocolTypeOverrunStatus : Byte := 0x88#8
def protocolTypeResetCause : Byte := 0x89#8
def protocolTypeWatchdogStatus : Byte := 0x8B#8
def protocolTypeAck : Byte := 0x90#8
def protocolTypeNack : Byte := 0x91#8

def protocolNackUnsupportedType : Byte := 0x01#8
def protocolNackInvalidLength : Byte := 0x02#8

/-- The eight statuses a host can request. -/
inductive StatusKind where
  | commStatus
  | timingStatus
  | jitterStatus
  | runtimeMemoryStatus
  | cpuLoadStatus
  | overrunStatus
  | resetCause
  | watchdogStatus
  deriving DecidableEq, Repr

/-- The type of the request for a status. -/
def StatusKind.getType : StatusKind → Byte
  | .commStatus => protocolTypeGetCommStatus
  | .timingStatus => protocolTypeGetTimingStatus
  | .jitterStatus => protocolTypeGetJitterStatus
  | .runtimeMemoryStatus => protocolTypeGetRuntimeMemoryStatus
  | .cpuLoadStatus => protocolTypeGetCpuLoadStatus
  | .overrunStatus => protocolTypeGetOverrunStatus
  | .resetCause => protocolTypeGetResetCause
  | .watchdogStatus => protocolTypeGetWatchdogStatus

/-- The type of the status itself. -/
def StatusKind.type : StatusKind → Byte
  | .commStatus => protocolTypeCommStatus
  | .timingStatus => protocolTypeTimingStatus
  | .jitterStatus => protocolTypeJitterStatus
  | .runtimeMemoryStatus => protocolTypeRuntimeMemoryStatus
  | .cpuLoadStatus => protocolTypeCpuLoadStatus
  | .overrunStatus => protocolTypeOverrunStatus
  | .resetCause => protocolTypeResetCause
  | .watchdogStatus => protocolTypeWatchdogStatus

/-- The variables `protocol_handle_frame` writes. The eight
`…_request_pending` and `…_sequence` pairs are two functions of the kind. -/
structure Slots where
  pendingFrame : ProtocolFrame
  responsePending : Byte
  requestPending : StatusKind → Byte
  sequence : StatusKind → Byte
  watchdogBlockRequestPending : Byte

/-- `protocol_prepare_nack`. -/
def protocolPrepareNack (sequence reason : Byte) (s : Slots) : Slots :=
  { s with
    pendingFrame := {
      type := protocolTypeNack
      sequence := sequence
      length := 1
      payload := Function.update s.pendingFrame.payload 0 reason }
    responsePending := 1 }

/-- A request whose length should have been zero. -/
def refuseLength (frame : ProtocolFrame) (s : Slots) : Slots :=
  if s.responsePending = 0 then protocolPrepareNack frame.sequence protocolNackInvalidLength s
  else s

/-- The branch of `protocol_handle_frame` for one kind of status. -/
def handleStatusRequest (kind : StatusKind) (frame : ProtocolFrame) (s : Slots) : Slots :=
  if frame.length = 0 then
    if s.requestPending kind = 0 then
      { s with
        sequence := Function.update s.sequence kind frame.sequence
        requestPending := Function.update s.requestPending kind 1 }
    -- a second request of the kind is dropped, and the first keeps its
    -- sequence
    else s
  else refuseLength frame s

/-- The branch of `protocol_handle_frame` for `INJECT_WATCHDOG_BLOCK`. -/
def handleBlockRequest (frame : ProtocolFrame) (s : Slots) : Slots :=
  if frame.length = 0 then { s with watchdogBlockRequestPending := 1 } else refuseLength frame s

/-- `protocol_handle_frame` from its test of `response_pending` on. -/
def handleImmediateRequest (frame : ProtocolFrame) (s : Slots) : Slots :=
  -- the one response slot is taken: the request is dropped
  if s.responsePending ≠ 0 then s
  else if frame.type = protocolTypePing then
    if frame.length = 0 then
      { s with
        pendingFrame := {
          s.pendingFrame with
          type := protocolTypePong, sequence := frame.sequence, length := 0 }
        responsePending := 1 }
    else protocolPrepareNack frame.sequence protocolNackInvalidLength s
  else if frame.type = protocolTypeEcho then
    if frame.length = 0 then protocolPrepareNack frame.sequence protocolNackInvalidLength s
    else
      { s with
        pendingFrame := {
          type := protocolTypeAck
          sequence := frame.sequence
          length := frame.length
          payload := fun index =>
            if index < frame.length.toNat then frame.payload index
            else s.pendingFrame.payload index }
        responsePending := 1 }
  else protocolPrepareNack frame.sequence protocolNackUnsupportedType s

/-- `protocol_handle_frame`. -/
def protocolHandleFrame (frame : ProtocolFrame) (s : Slots) : Slots :=
  if frame.type = protocolTypeGetCommStatus then handleStatusRequest .commStatus frame s
  else if frame.type = protocolTypeGetTimingStatus then handleStatusRequest .timingStatus frame s
  else if frame.type = protocolTypeGetJitterStatus then handleStatusRequest .jitterStatus frame s
  else if frame.type = protocolTypeGetRuntimeMemoryStatus then
    handleStatusRequest .runtimeMemoryStatus frame s
  else if frame.type = protocolTypeGetCpuLoadStatus then
    handleStatusRequest .cpuLoadStatus frame s
  else if frame.type = protocolTypeGetOverrunStatus then
    handleStatusRequest .overrunStatus frame s
  else if frame.type = protocolTypeGetResetCause then handleStatusRequest .resetCause frame s
  else if frame.type = protocolTypeGetWatchdogStatus then
    handleStatusRequest .watchdogStatus frame s
  else if frame.type = protocolTypeInjectWatchdogBlock then handleBlockRequest frame s
  else handleImmediateRequest frame s

/-! ## What a frame requests -/

/-- What a frame asks for, by its type and length. -/
inductive Request where
  | status (kind : StatusKind)
  | block
  | ping
  | echo
  | badLength
  | unsupported
  deriving DecidableEq, Repr

/-- The kind of status a type requests. -/
def StatusKind.ofGetType (type : Byte) : Option StatusKind :=
  if type = protocolTypeGetCommStatus then some .commStatus
  else if type = protocolTypeGetTimingStatus then some .timingStatus
  else if type = protocolTypeGetJitterStatus then some .jitterStatus
  else if type = protocolTypeGetRuntimeMemoryStatus then some .runtimeMemoryStatus
  else if type = protocolTypeGetCpuLoadStatus then some .cpuLoadStatus
  else if type = protocolTypeGetOverrunStatus then some .overrunStatus
  else if type = protocolTypeGetResetCause then some .resetCause
  else if type = protocolTypeGetWatchdogStatus then some .watchdogStatus
  else none

/-- The request a frame makes. -/
def ProtocolFrame.request (frame : ProtocolFrame) : Request :=
  match StatusKind.ofGetType frame.type with
  | some kind => if frame.length = 0 then .status kind else .badLength
  | none =>
    if frame.type = protocolTypeInjectWatchdogBlock then
      if frame.length = 0 then .block else .badLength
    else if frame.type = protocolTypePing then
      if frame.length = 0 then .ping else .badLength
    else if frame.type = protocolTypeEcho then
      if frame.length = 0 then .badLength else .echo
    else .unsupported

/-- The immediate response to a frame, `none` where there is none. The
bytes behind its length are what the slot held before. -/
def immediateResponse (frame : ProtocolFrame) (old : ℕ → Byte) : Option ProtocolFrame :=
  match frame.request with
  | .status _ | .block => none
  | .ping => some ⟨protocolTypePong, frame.sequence, 0, old⟩
  | .echo =>
    some ⟨protocolTypeAck, frame.sequence, frame.length, fun index =>
      if index < frame.length.toNat then frame.payload index else old index⟩
  | .badLength =>
    some ⟨protocolTypeNack, frame.sequence, 1, Function.update old 0 protocolNackInvalidLength⟩
  | .unsupported =>
    some ⟨protocolTypeNack, frame.sequence, 1, Function.update old 0 protocolNackUnsupportedType⟩

/-- Each GET type is recognised as its own status. -/
theorem ofGetType_getType (kind : StatusKind) :
    StatusKind.ofGetType kind.getType = some kind := by
  rcases kind <;> rfl

/-- A type that is recognised as a status is the GET type of that status. -/
theorem getType_of_ofGetType {type : Byte} {kind : StatusKind}
    (h : StatusKind.ofGetType type = some kind) : kind.getType = type := by
  unfold StatusKind.ofGetType at h
  split_ifs at h <;> (cases h; symm; assumption)

variable {frame response : ProtocolFrame} {kind : StatusKind} {s : Slots}

/-- The eight status branches are one. -/
theorem protocolHandleFrame_some (h : StatusKind.ofGetType frame.type = some kind) :
    protocolHandleFrame frame s = handleStatusRequest kind frame s := by
  have ht := getType_of_ofGetType h
  unfold protocolHandleFrame
  rw [← ht]
  rcases kind <;> rfl

/-- A frame that asks for no status is a request to block or is answered
at once. -/
theorem protocolHandleFrame_none (h : StatusKind.ofGetType frame.type = none) :
    protocolHandleFrame frame s =
      if frame.type = protocolTypeInjectWatchdogBlock then handleBlockRequest frame s
      else handleImmediateRequest frame s := by
  unfold StatusKind.ofGetType at h
  split_ifs at h with h1 h2 h3 h4 h5 h6 h7 h8
  rw [protocolHandleFrame, if_neg h1, if_neg h2, if_neg h3, if_neg h4, if_neg h5, if_neg h6,
    if_neg h7, if_neg h8]

/-- A GET request is one if it has no payload. -/
theorem request_of_some (h : StatusKind.ofGetType frame.type = some kind) :
    frame.request = if frame.length = 0 then .status kind else .badLength := by
  unfold ProtocolFrame.request
  rw [h]

/-- What the other frames ask for, in the order in which the code compares the
types. -/
theorem request_of_none (h : StatusKind.ofGetType frame.type = none) :
    frame.request =
      if frame.type = protocolTypeInjectWatchdogBlock then
        if frame.length = 0 then .block else .badLength
      else if frame.type = protocolTypePing then
        if frame.length = 0 then .ping else .badLength
      else if frame.type = protocolTypeEcho then
        if frame.length = 0 then .badLength else .echo
      else .unsupported := by
  unfold ProtocolFrame.request
  rw [h]

/-- A status is requested by its own type and an empty payload. -/
theorem request_eq_status_iff : frame.request = .status kind ↔
    frame.type = kind.getType ∧ frame.length = 0 := by
  rcases hk : StatusKind.ofGetType frame.type with _ | k
  · constructor
    · intro h
      rw [request_of_none hk] at h
      split_ifs at h
    · rintro ⟨ht, -⟩
      rw [ht, ofGetType_getType] at hk
      cases hk
  · rw [request_of_some hk, ← getType_of_ofGetType hk]
    by_cases hl : frame.length = 0
    · rw [if_pos hl]
      constructor
      · intro h
        obtain rfl : k = kind := by simpa using h
        exact ⟨rfl, hl⟩
      · rintro ⟨ht, -⟩
        have := ofGetType_getType k
        rw [ht, ofGetType_getType] at this
        rw [Option.some.inj this]
    · rw [if_neg hl]
      constructor
      · intro h
        cases h
      · rintro ⟨-, h0⟩
        exact absurd h0 hl

/-- A block is requested by its type and an empty payload. -/
theorem request_eq_block_iff : frame.request = .block ↔
    frame.type = protocolTypeInjectWatchdogBlock ∧ frame.length = 0 := by
  rcases hk : StatusKind.ofGetType frame.type with _ | k
  · rw [request_of_none hk]
    by_cases hb : frame.type = protocolTypeInjectWatchdogBlock
    · by_cases hl : frame.length = 0
      · rw [if_pos hb, if_pos hl]
        exact ⟨fun _ => ⟨hb, hl⟩, fun _ => rfl⟩
      · rw [if_pos hb, if_neg hl]
        exact ⟨fun h => (by cases h), fun h => absurd h.2 hl⟩
    · rw [if_neg hb]
      refine ⟨fun h => ?_, fun h => absurd h.1 hb⟩
      split_ifs at h
  · rw [request_of_some hk]
    constructor
    · intro h
      split_ifs at h
    · rintro ⟨ht, -⟩
      rw [ht] at hk
      cases hk

/-- **A status request** takes its own flag if that is clear. -/
theorem protocolHandleFrame_status (h : frame.request = .status kind) :
    protocolHandleFrame frame s =
      if s.requestPending kind = 0 then
        { s with
          sequence := Function.update s.sequence kind frame.sequence
          requestPending := Function.update s.requestPending kind 1 }
      else s := by
  obtain ⟨ht, hl⟩ := request_eq_status_iff.mp h
  have hk : StatusKind.ofGetType frame.type = some kind := by rw [ht, ofGetType_getType]
  rw [protocolHandleFrame_some hk, handleStatusRequest, if_pos hl]

/-- **A block request** sets its flag. -/
theorem protocolHandleFrame_block (h : frame.request = .block) :
    protocolHandleFrame frame s = { s with watchdogBlockRequestPending := 1 } := by
  obtain ⟨ht, hl⟩ := request_eq_block_iff.mp h
  have hk : StatusKind.ofGetType frame.type = none := by
    rw [ht]
    rfl
  rw [protocolHandleFrame_none hk, if_pos ht, handleBlockRequest, if_pos hl]

/-- **Any other frame** takes the response slot if that is free. -/
theorem protocolHandleFrame_immediate
    (h : immediateResponse frame s.pendingFrame.payload = some response) :
    protocolHandleFrame frame s =
      if s.responsePending = 0 then { s with pendingFrame := response, responsePending := 1 }
      else s := by
  unfold immediateResponse at h
  rcases hk : StatusKind.ofGetType frame.type with _ | kind
  · rw [request_of_none hk] at h
    rw [protocolHandleFrame_none hk]
    by_cases hb : frame.type = protocolTypeInjectWatchdogBlock
    · rw [if_pos hb] at h ⊢
      unfold handleBlockRequest refuseLength
      by_cases hl : frame.length = 0
      · rw [if_pos hl] at h
        cases h
      · rw [if_neg hl] at h ⊢
        rw [← Option.some.inj h]
        rfl
    · rw [if_neg hb] at h ⊢
      unfold handleImmediateRequest
      by_cases hr : s.responsePending = 0
      swap
      · rw [if_pos hr, if_neg hr]
      rw [if_neg (not_not.mpr hr), if_pos hr]
      by_cases hp : frame.type = protocolTypePing
      · rw [if_pos hp] at h ⊢
        by_cases hl : frame.length = 0
        · rw [if_pos hl] at h ⊢
          rw [← Option.some.inj h]
        · rw [if_neg hl] at h ⊢
          rw [← Option.some.inj h]
          rfl
      · rw [if_neg hp] at h ⊢
        by_cases he : frame.type = protocolTypeEcho
        · rw [if_pos he] at h ⊢
          by_cases hl : frame.length = 0
          · rw [if_pos hl] at h ⊢
            rw [← Option.some.inj h]
            rfl
          · rw [if_neg hl] at h ⊢
            rw [← Option.some.inj h]
        · rw [if_neg he] at h ⊢
          rw [← Option.some.inj h]
          rfl
  · rw [request_of_some hk] at h
    rw [protocolHandleFrame_some hk, handleStatusRequest]
    by_cases hl : frame.length = 0
    · rw [if_pos hl] at h
      cases h
    · rw [if_neg hl] at h ⊢
      rw [← Option.some.inj h]
      rfl

/-- Every frame is one of the three. -/
theorem request_cases (frame : ProtocolFrame) (old : ℕ → Byte) :
    (∃ kind, frame.request = .status kind) ∨ frame.request = .block ∨
      ∃ response, immediateResponse frame old = some response := by
  unfold immediateResponse
  rcases frame.request with kind | _ | _ | _ | _ | _
  · exact .inl ⟨kind, rfl⟩
  · exact .inr (.inl rfl)
  all_goals exact .inr (.inr ⟨_, rfl⟩)

end SentryCell
