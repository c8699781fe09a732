import SentryCell.Lib.Bounds
import SentryCell.Protocol.Parser
import SentryCell.Protocol.Responses
/-!
# The arrays of the protocol

`firmware/protocol/protocol.c` once more, with its arrays at their sizes,
`parser_state` as the number it is, and no result where an index is out of
range, a length does not fit its byte, or a branch is taken that is only
there for safety. `protocolProcessByte_eq` and `encodeFrame_eq` say that
where the lengths are in range this is the protocol of the other modules.
-/

namespace SentryCell

open Bounds

/-- The number of a parser state. -/
def ParserState.value : ParserState → Byte
  | .waitSof => 0
  | .readVersion => 1
  | .readType => 2
  | .readSequence => 3
  | .readLength => 4
  | .readPayload => 5
  | .readCrc => 6

/-- `PROTOCOL_MAX_PAYLOAD`, the size of a payload. -/
def payloadSize : ℕ := 8
/-- `PROTOCOL_CRC_DATA_SIZE`. -/
def crcDataSize : ℕ := 4 + payloadSize
/-- `PROTOCOL_MAX_FRAME_SIZE`. -/
def maxFrameSize : ℕ := 6 + payloadSize

/-- A `protocol_frame_t` in memory, where the payload of a local variable
begins uninitialised. -/
structure MemoryFrame where
  type : Byte
  sequence : Byte
  length : Byte
  payload : ℕ → Option Byte

/-- A static variable is initialised throughout. -/
def ProtocolFrame.inMemory (frame : ProtocolFrame) : MemoryFrame :=
  ⟨frame.type, frame.sequence, frame.length, fun i => some (frame.payload i)⟩

/-- The static variables of `protocol.c`, as they are stored. -/
structure ProtocolStatics where
  parserState : Byte
  receivedFrame : ProtocolFrame
  payloadIndex : Byte
  lastByteMs : Word32
  parserTimeoutCount : Byte
  crcErrorCount : Byte
  slots : Slots

/-- How the variables are stored. -/
def Protocol.statics (p : Protocol) : ProtocolStatics where
  parserState := p.parserState.value
  receivedFrame := p.receivedFrame
  payloadIndex := p.payloadIndex
  lastByteMs := p.lastByteMs
  parserTimeoutCount := p.parserTimeoutCount
  crcErrorCount := p.crcErrorCount
  slots := p.slots

namespace Checked

/-- `crc8_compute`, on an array of `size` bytes. -/
def crc8Compute (size : ℕ) (data : ℕ → Option Byte) (length : Byte) : Option Byte :=
  (List.range length.toNat).foldlM (fun crc index => do
    let byte ← (load size data index).join
    some (crc8Shift^[8] (crc ^^^ byte))) 0

/-- `protocol_compute_crc`. -/
def protocolComputeCrc (frame : MemoryFrame) : Option Byte :=
  if frame.length > protocolMaxPayload then none
  else do
    let crcData ← store crcDataSize (fun _ => none) 0 (some protocolVersion)
    let crcData ← store crcDataSize crcData 1 (some frame.type)
    let crcData ← store crcDataSize crcData 2 (some frame.sequence)
    let crcData ← store crcDataSize crcData 3 (some frame.length)
    let crcData ← copy payloadSize crcDataSize frame.payload 4 frame.length.toNat crcData
    let length ← narrow (4 + frame.length.toNat)
    crc8Compute crcDataSize crcData length

/-- `protocol_prepare_nack`. -/
def protocolPrepareNack (sequence reason : Byte) (s : Slots) : Option Slots := do
  let payload ← store payloadSize s.pendingFrame.payload 0 reason
  some { s with
    pendingFrame := ⟨protocolTypeNack, sequence, 1, payload⟩
    responsePending := 1 }

/-- A request whose length should have been zero. -/
def refuseLength (frame : ProtocolFrame) (s : Slots) : Option Slots :=
  if s.responsePending = 0 then protocolPrepareNack frame.sequence protocolNackInvalidLength s
  else some s

/-- The branch of `protocol_handle_frame` for one kind of status. -/
def handleStatusRequest (kind : StatusKind) (frame : ProtocolFrame) (s : Slots) : Option Slots :=
  if frame.length = 0 then
    if s.requestPending kind = 0 then
      some { s with
        sequence := Function.update s.sequence kind frame.sequence
        requestPending := Function.update s.requestPending kind 1 }
    else some s
  else refuseLength frame s

/-- The branch of `protocol_handle_frame` for `INJECT_WATCHDOG_BLOCK`. -/
def handleBlockRequest (frame : ProtocolFrame) (s : Slots) : Option Slots :=
  if frame.length = 0 then some { s with watchdogBlockRequestPending := 1 }
  else refuseLength frame s

/-- `protocol_handle_frame` from its test of `response_pending` on. -/
def handleImmediateRequest (frame : ProtocolFrame) (s : Slots) : Option Slots :=
  if s.responsePending ≠ 0 then some s
  else if frame.type = protocolTypePing then
    if frame.length = 0 then
      some { s with
        pendingFrame := {
          s.pendingFrame with
          type := protocolTypePong, sequence := frame.sequence, length := 0 }
        responsePending := 1 }
    else protocolPrepareNack frame.sequence protocolNackInvalidLength s
  else if frame.type = protocolTypeEcho then
    if frame.length = 0 then protocolPrepareNack frame.sequence protocolNackInvalidLength s
    else do
      let payload ← copy payloadSize payloadSize frame.payload 0 frame.length.toNat
        s.pendingFrame.payload
      some { s with
        pendingFrame := ⟨protocolTypeAck, frame.sequence, frame.length, payload⟩
        responsePending := 1 }
  else protocolPrepareNack frame.sequence protocolNackUnsupportedType s

/-- `protocol_handle_frame`. -/
def protocolHandleFrame (frame : ProtocolFrame) (s : Slots) : Option Slots :=
  if frame.type = protocolTypeGetCommStatus then handleStatusRequest .commStatus frame s
  else if frame.type = protocolTypeGetTimingStatus then handleStatusRequest .timingStatus frame s
  else if frame.type = protocolTypeGetJitterStatus then handleStatusRequest .jitterStatus frame s
  else if frame.type = protocolTypeGetRuntimeMemoryStatus then
    handleStatusRequest .runtimeMemoryStatus frame s
  else if frame.type = protocolTypeGetCpuLoadStatus then
    handleStatusRequest .cpuLoadStatus frame s
  else if frame.type = protocolTypeGetOverrunStatus then
    handleStatusRequest .overrunStatus frame s
  else if frame.type = protocolTypeGetResetCause then handleStatusRequest .resetCause frame s
  else if frame.type = protocolTypeGetWatchdogStatus then
    handleStatusRequest .watchdogStatus frame s
  else if frame.type = protocolTypeInjectWatchdogBlock then handleBlockRequest frame s
  else handleImmediateRequest frame s

/-- `protocol_reset_parser`. -/
def protocolResetParser (p : ProtocolStatics) : ProtocolStatics :=
  { p with
    parserState := ParserState.waitSof.value
    receivedFrame := { p.receivedFrame with type := 0, sequence := 0, length := 0 }
    payloadIndex := 0
    lastByteMs := 0 }

/-- The branch of `protocol_process_byte` for `PROTOCOL_STATE_READ_PAYLOAD`.
Its `else` is there for safety. -/
def readPayload (byte : Byte) (p : ProtocolStatics) : Option ProtocolStatics :=
  if p.payloadIndex < p.receivedFrame.length ∧ p.payloadIndex < protocolMaxPayload then do
    let payload ← store payloadSize p.receivedFrame.payload p.payloadIndex.toNat byte
    let payloadIndex ← narrow (p.payloadIndex.toNat + 1)
    let p := { p with
      receivedFrame := { p.receivedFrame with payload := payload }, payloadIndex := payloadIndex }
    some (if p.payloadIndex = p.receivedFrame.length then
      { p with parserState := ParserState.readCrc.value } else p)
  else none

/-- The branch for `PROTOCOL_STATE_READ_CRC`. -/
def readCrc (byte : Byte) (p : ProtocolStatics) : Option ProtocolStatics := do
  let crc ← protocolComputeCrc p.receivedFrame.inMemory
  if byte = crc then
    let slots ← protocolHandleFrame p.receivedFrame p.slots
    some (protocolResetParser { p with slots := slots })
  else
    some (protocolResetParser
      { p with crcErrorCount := protocolIncrementSaturating p.crcErrorCount })

/-- The `switch` of `protocol_process_byte`. Its `default` is there for
safety. -/
def protocolSwitch (byte : Byte) (nowMs : Word32) (p : ProtocolStatics) :
    Option ProtocolStatics :=
  if p.parserState = ParserState.waitSof.value then
    some (if byte = protocolSof then
      { protocolResetParser p with
        parserState := ParserState.readVersion.value, lastByteMs := nowMs }
    else p)
  else if p.parserState = ParserState.readVersion.value then
    some (if byte = protocolVersion then { p with parserState := ParserState.readType.value }
    else protocolResetParser p)
  else if p.parserState = ParserState.readType.value then
    some { p with
      receivedFrame := { p.receivedFrame with type := byte }
      parserState := ParserState.readSequence.value }
  else if p.parserState = ParserState.readSequence.value then
    some { p with
      receivedFrame := { p.receivedFrame with sequence := byte }
      parserState := ParserState.readLength.value }
  else if p.parserState = ParserState.readLength.value then
    let p := { p with
      receivedFrame := { p.receivedFrame with length := byte }
      payloadIndex := 0 }
    some (if byte > protocolMaxPayload then protocolResetParser p
    else if byte = 0 then { p with parserState := ParserState.readCrc.value }
    else { p with parserState := ParserState.readPayload.value })
  else if p.parserState = ParserState.readPayload.value then readPayload byte p
  else if p.parserState = ParserState.readCrc.value then readCrc byte p
  else none

/-- `protocol_process_byte`. -/
def protocolProcessByte (byte : Byte) (nowMs : Word32) (p : ProtocolStatics) :
    Option ProtocolStatics :=
  protocolSwitch byte nowMs
    (if p.parserState ≠ ParserState.waitSof.value then { p with lastByteMs := nowMs } else p)

/-- `protocol_check_timeout`. -/
def protocolCheckTimeout (nowMs : Word32) (p : ProtocolStatics) : ProtocolStatics :=
  if p.parserState ≠ ParserState.waitSof.value ∧
      nowMs - p.lastByteMs ≥ protocolInterbyteTimeoutMs then
    let p := protocolResetParser p
    { p with parserTimeoutCount := protocolIncrementSaturating p.parserTimeoutCount }
  else p

/-- `protocol_get_response`, into a local variable. -/
def protocolGetResponse (s : Slots) : Option MemoryFrame := do
  let payload ← copy payloadSize payloadSize s.pendingFrame.inMemory.payload 0
    s.pendingFrame.length.toNat fun _ => none
  some ⟨s.pendingFrame.type, s.pendingFrame.sequence, s.pendingFrame.length, payload⟩

/-- The local variable of a `protocol_send_…` function, with its payload
bytes assigned one by one. -/
def statusFrame (kind : StatusKind) (sequence : Byte) (payload : List Byte) :
    Option MemoryFrame := do
  let length ← narrow payload.length
  let payload ← copy payload.length payloadSize (fun i => payload[i]?) 0 payload.length
    fun _ => none
  some ⟨kind.type, sequence, length, payload⟩

/-- `protocol_send_frame` up to its call of `uart_tx_write`: the local array
and its length. -/
def encodeFrame (frame : MemoryFrame) : Option ((ℕ → Option Byte) × Byte) :=
  if frame.length > protocolMaxPayload then none
  else do
    let crc ← protocolComputeCrc frame
    let encodedFrame ← store maxFrameSize (fun _ => none) 0 (some protocolSof)
    let encodedFrame ← store maxFrameSize encodedFrame 1 (some protocolVersion)
    let encodedFrame ← store maxFrameSize encodedFrame 2 (some frame.type)
    let encodedFrame ← store maxFrameSize encodedFrame 3 (some frame.sequence)
    let encodedFrame ← store maxFrameSize encodedFrame 4 (some frame.length)
    let encodedFrame ← copy payloadSize maxFrameSize frame.payload 5 frame.length.toNat
      encodedFrame
    let encodedFrame ← store maxFrameSize encodedFrame (5 + frame.length.toNat) (some crc)
    let encodedLength ← narrow (6 + frame.length.toNat)
    some (encodedFrame, encodedLength)

end Checked

variable {frame : ProtocolFrame} {m : MemoryFrame} {d : List Byte} {s : Slots} {p : Protocol}

/-! ## The checksum -/

/-- The check of one byte more takes eight shifts more. -/
theorem crc8Compute_concat (b : Byte) :
    crc8Compute (d ++ [b]) = crc8Shift^[8] (crc8Compute d ^^^ b) := List.foldl_concat ..

/-- **The checksum loop** on an array whose first bytes are known. -/
theorem checked_crc8Compute {size : ℕ} {data : ℕ → Option Byte} {length : Byte}
    (hdata : Filled data d) (hlength : d.length = length.toNat) (hsize : d.length ≤ size) :
    Checked.crc8Compute size data length = some (crc8Compute d) := by
  have hloop : ∀ n ≤ d.length, (List.range n).foldlM (fun crc index => do
      let byte ← (load size data index).join
      some (crc8Shift^[8] (crc ^^^ byte))) (0 : Byte) = some (crc8Compute (d.take n)) := by
    intro n hn
    induction n with
    | zero => rfl
    | succ n ih =>
      have hbyte : (load size data n).join = some d[n] := by
        rw [load_eq (by omega), hdata n hn, List.getElem?_eq_getElem hn]
        rfl
      rw [List.range_succ, List.foldlM_append, ih (by omega), List.take_succ_eq_append_getElem hn,
        crc8Compute_concat]
      simp only [Option.bind_eq_bind, Option.bind_some, List.foldlM_cons, List.foldlM_nil, hbyte,
        Option.pure_def]
  have hall := hloop d.length (Nat.le_refl _)
  rw [List.take_length] at hall
  rw [Checked.crc8Compute, ← hlength]
  exact hall

/-- A frame in memory whose payload is `d`. -/
structure MemoryFrame.Carries (m : MemoryFrame) (d : List Byte) : Prop where
  filled : Filled m.payload d
  length_eq : d.length = m.length.toNat
  length_le : d.length ≤ payloadSize

/-- The array that the checksum is computed on. -/
theorem checked_protocolComputeCrc (h : m.Carries d) :
    Checked.protocolComputeCrc m =
      some (crc8Compute ([protocolVersion, m.type, m.sequence, m.length] ++ d)) := by
  have hle : d.length ≤ 8 := h.length_le
  have hguard : ¬ m.length > protocolMaxPayload := by
    rw [length_gt_maxPayload, ← h.length_eq]
    omega
  have hheader : Filled (Function.update (Function.update (Function.update (Function.update
      (fun _ => none) 0 (some protocolVersion)) 1 (some m.type)) 2 (some m.sequence)) 3
      (some m.length)) [protocolVersion, m.type, m.sequence, m.length] :=
    ((filled_nil.store.store).store).store
  have hcrcData := hheader.copy h.filled
  rw [Checked.protocolComputeCrc, if_neg hguard, ← h.length_eq]
  simp only [store_eq (show 0 < crcDataSize by decide), store_eq (show 1 < crcDataSize by decide),
    store_eq (show 2 < crcDataSize by decide), store_eq (show 3 < crcDataSize by decide),
    Option.bind_eq_bind, Option.bind_some,
    copy_eq h.length_le (show 4 + d.length ≤ crcDataSize by simp [crcDataSize, payloadSize]; omega),
    narrow_eq (show 4 + d.length < 256 by omega)]
  refine checked_crc8Compute hcrcData ?_ ?_
  · rw [BitVec.toNat_ofNat, Nat.mod_eq_of_lt (by omega), List.length_append]
    rfl
  · rw [List.length_append]
    simp [crcDataSize, payloadSize]
    omega

/-- A static frame carries its payload. -/
theorem ProtocolFrame.carries (h : frame.length.toNat ≤ payloadSize) :
    frame.inMemory.Carries frame.data where
  filled := by
    intro i hi
    rw [length_data] at hi
    simp [ProtocolFrame.data, ProtocolFrame.inMemory, hi]
  length_eq := length_data frame
  length_le := by
    rw [length_data]
    exact h

/-- **The guarded CRC** reads no payload byte behind the end where the length
fits, and is the plain one there. -/
theorem checked_protocolComputeCrc_inMemory (h : frame.length.toNat ≤ payloadSize) :
    Checked.protocolComputeCrc frame.inMemory = some (protocolComputeCrc frame) := by
  rw [checked_protocolComputeCrc (ProtocolFrame.carries h), protocolComputeCrc,
    if_neg (mt length_gt_maxPayload.mp (Nat.not_lt.mpr h))]
  rfl

/-! ## The slots -/

/-- A NACK has one byte of payload, which is there. -/
theorem checked_protocolPrepareNack (sequence reason : Byte) :
    Checked.protocolPrepareNack sequence reason s =
      some (protocolPrepareNack sequence reason s) := rfl

/-- Refusing a request writes no byte but the reason. -/
theorem checked_refuseLength : Checked.refuseLength frame s = some (refuseLength frame s) := by
  unfold Checked.refuseLength refuseLength
  split
  · exact checked_protocolPrepareNack _ _
  · rfl

/-- A request for a status sets a flag and copies nothing. -/
theorem checked_handleStatusRequest (kind : StatusKind) :
    Checked.handleStatusRequest kind frame s = some (handleStatusRequest kind frame s) := by
  unfold Checked.handleStatusRequest handleStatusRequest
  split
  · split <;> rfl
  · exact checked_refuseLength

theorem checked_handleBlockRequest :
    Checked.handleBlockRequest frame s = some (handleBlockRequest frame s) := by
  unfold Checked.handleBlockRequest handleBlockRequest
  split
  · rfl
  · exact checked_refuseLength

/-- An ECHO is copied into the response byte by byte, both buffers being long
enough for a length that fits. -/
theorem checked_handleImmediateRequest (h : frame.length.toNat ≤ payloadSize) :
    Checked.handleImmediateRequest frame s = some (handleImmediateRequest frame s) := by
  unfold Checked.handleImmediateRequest handleImmediateRequest
  split
  · rfl
  · split
    · split
      · rfl
      · exact checked_protocolPrepareNack _ _
    · split
      · split
        · exact checked_protocolPrepareNack _ _
        · -- the copy is of what the received frame announces
          have hfits : 0 + frame.length.toNat ≤ payloadSize := by
            rw [Nat.zero_add]
            exact h
          rw [copy_eq h hfits]
          simp
      · exact checked_protocolPrepareNack _ _

/-- **A frame in range is handled within the arrays.** -/
theorem checked_protocolHandleFrame (h : frame.length.toNat ≤ payloadSize) :
    Checked.protocolHandleFrame frame s = some (protocolHandleFrame frame s) := by
  unfold Checked.protocolHandleFrame protocolHandleFrame
  simp only [checked_handleStatusRequest, checked_handleBlockRequest,
    checked_handleImmediateRequest h]
  split_ifs <;> rfl

/-! ## A byte -/

/-- **Where the parser is in its arrays**, and what the response slot may
hold. -/
structure Protocol.Bounded (p : Protocol) : Prop where
  readPayload : p.parserState = .readPayload →
    p.payloadIndex < p.receivedFrame.length ∧ p.receivedFrame.length.toNat ≤ payloadSize
  readCrc : p.parserState = .readCrc →
    p.receivedFrame.length.toNat ≤ payloadSize ∧ p.payloadIndex = p.receivedFrame.length
  pending : p.slots.pendingFrame.length.toNat ≤ payloadSize

/-- The seven states have seven numbers. -/
theorem value_inj {a b : ParserState} : a.value = b.value ↔ a = b := by
  cases a <;> cases b <;> decide

/-- **A byte of the payload is stored within the frame**: the index is below a
length that was checked. -/
theorem checked_readPayload {byte : Byte} {nowMs : Word32} (hs : p.parserState = .readPayload)
    (hindex : p.payloadIndex < p.receivedFrame.length)
    (hlength : p.receivedFrame.length.toNat ≤ payloadSize) :
    Checked.readPayload byte p.statics = some (protocolSwitch byte nowMs p).statics := by
  have hlt : p.payloadIndex.toNat < p.receivedFrame.length.toNat := hindex
  have hsize : p.payloadIndex.toNat < payloadSize := Nat.lt_of_lt_of_le hlt hlength
  have hmax : p.payloadIndex < protocolMaxPayload := hsize
  have hnarrow : narrow (p.payloadIndex.toNat + 1) = some (p.payloadIndex + 1) := by
    rw [narrow_eq (by unfold payloadSize at hsize; omega), BitVec.ofNat_add, BitVec.ofNat_toNat,
      BitVec.setWidth_eq]
    rfl
  have hguard : p.statics.payloadIndex < p.statics.receivedFrame.length ∧
      p.statics.payloadIndex < protocolMaxPayload := ⟨hindex, hmax⟩
  have hstore : store payloadSize p.statics.receivedFrame.payload p.statics.payloadIndex.toNat byte =
      some (Function.update p.receivedFrame.payload p.payloadIndex.toNat byte) := store_eq hsize
  unfold Checked.readPayload protocolSwitch
  simp only [hs]
  rw [if_pos hguard, if_pos ⟨hindex, hmax⟩, hstore, Option.bind_eq_bind, Option.bind_some,
    show narrow (p.statics.payloadIndex.toNat + 1) = some (p.payloadIndex + 1) from hnarrow,
    Option.bind_eq_bind, Option.bind_some]
  -- the two read the length of the same frame
  rw [apply_ite Protocol.statics]
  simp only [Protocol.statics, hs]

/-- The last byte of a frame hands over a frame whose length fits. -/
theorem checked_readCrc {byte : Byte} {nowMs : Word32} (hs : p.parserState = .readCrc)
    (hlength : p.receivedFrame.length.toNat ≤ payloadSize) :
    Checked.readCrc byte p.statics = some (protocolSwitch byte nowMs p).statics := by
  obtain ⟨_, received, _, _, _, _, _⟩ := p
  subst hs
  simp only [Checked.readCrc, Protocol.statics, protocolSwitch,
    checked_protocolComputeCrc_inMemory hlength, checked_protocolHandleFrame hlength,
    Option.bind_eq_bind, Option.bind_some]
  by_cases hcrc : byte = protocolComputeCrc received
  · rw [if_pos hcrc, if_pos hcrc]
    rfl
  · rw [if_neg hcrc, if_neg hcrc]
    rfl

/-- **The guarded switch does what the plain one does**, in every state of a
parser in bounds. -/
theorem checked_protocolSwitch (h : p.Bounded) (byte : Byte) (nowMs : Word32) :
    Checked.protocolSwitch byte nowMs p.statics =
      some (protocolSwitch byte nowMs p).statics := by
  have hvalue : p.statics.parserState = p.parserState.value := rfl
  rcases hs : p.parserState with _ | _ | _ | _ | _ | _ | _
  all_goals
    simp only [Checked.protocolSwitch, hvalue, hs, value_inj, reduceCtorEq, if_true, if_false]
  · simp only [protocolSwitch, hs]
    split <;> simp [Checked.protocolResetParser, protocolResetParser, Protocol.statics]
  · simp only [protocolSwitch, hs]
    split <;> rfl
  · simp only [protocolSwitch, hs]
    rfl
  · simp only [protocolSwitch, hs]
    rfl
  · simp only [protocolSwitch, hs]
    split
    · rfl
    · split <;> rfl
  · exact checked_readPayload hs (h.readPayload hs).1 (h.readPayload hs).2
  · exact checked_readCrc hs (h.readCrc hs).1

/-- **A byte within the arrays** is a byte of the parser. -/
theorem checked_protocolProcessByte (h : p.Bounded) (byte : Byte) (nowMs : Word32) :
    Checked.protocolProcessByte byte nowMs p.statics =
      some (protocolProcessByte byte nowMs p).statics := by
  have htimed : Protocol.Bounded { p with lastByteMs := nowMs } :=
    ⟨h.readPayload, h.readCrc, h.pending⟩
  have hvalue : p.statics.parserState = p.parserState.value := rfl
  unfold Checked.protocolProcessByte protocolProcessByte
  simp only [hvalue, ne_eq, value_inj]
  split
  · exact checked_protocolSwitch htimed byte nowMs
  · exact checked_protocolSwitch h byte nowMs

@[simp] theorem checked_protocolCheckTimeout (nowMs : Word32) :
    Checked.protocolCheckTimeout nowMs p.statics = (protocolCheckTimeout nowMs p).statics := by
  have hvalue : p.statics.parserState = p.parserState.value := rfl
  have hlast : p.statics.lastByteMs = p.lastByteMs := rfl
  unfold Checked.protocolCheckTimeout protocolCheckTimeout
  simp only [hvalue, hlast, ne_eq, value_inj]
  split <;> rfl

/-! ## What the operations keep -/

/-- A parser that is not past the length byte has nothing to be out of. -/
theorem Protocol.bounded_of_ne (hpayload : p.parserState ≠ .readPayload)
    (hcrc : p.parserState ≠ .readCrc)
    (hpending : p.slots.pendingFrame.length.toNat ≤ payloadSize) : p.Bounded where
  readPayload := fun h => absurd h hpayload
  readCrc := fun h => absurd h hcrc
  pending := hpending

/-- Outside a frame the response slot alone has a length that matters. -/
theorem Protocol.bounded_of_waitSof (hs : p.parserState = .waitSof)
    (hpending : p.slots.pendingFrame.length.toNat ≤ payloadSize) : p.Bounded :=
  Protocol.bounded_of_ne (by simp [hs]) (by simp [hs]) hpending

/-- The initialisation leaves everything in bounds. -/
theorem bounded_protocolInit (p : Protocol) : (protocolInit p).Bounded :=
  Protocol.bounded_of_waitSof rfl (Nat.zero_le _)

/-- **The response slot takes over a bound** that the received frame meets. -/
theorem pending_protocolHandleFrame (hframe : frame.length.toNat ≤ payloadSize)
    (hs : s.pendingFrame.length.toNat ≤ payloadSize) :
    (protocolHandleFrame frame s).pendingFrame.length.toNat ≤ payloadSize := by
  obtain ⟨kind, hr⟩ | hr | ⟨response, hr⟩ := request_cases frame s.pendingFrame.payload
  · rw [protocolHandleFrame_status hr]
    split <;> exact hs
  · rw [protocolHandleFrame_block hr]
    exact hs
  · rw [protocolHandleFrame_immediate hr]
    split
    · exact (documented_immediate hframe hr).1
    · exact hs

/-- **A byte leaves the parser within its arrays.** -/
theorem Protocol.Bounded.processByte (h : p.Bounded) (byte : Byte) (nowMs : Word32) :
    (protocolProcessByte byte nowMs p).Bounded := by
  have hpending := h.pending
  rcases hs : p.parserState with _ | _ | _ | _ | _ | _ | _
  · rw [processByte_waitSof hs]
    split
    · exact Protocol.bounded_of_ne (by simp) (by simp) hpending
    · exact h
  · rw [processByte_readVersion hs]
    split
    · exact Protocol.bounded_of_ne (by simp) (by simp) hpending
    · exact Protocol.bounded_of_waitSof rfl hpending
  · rw [processByte_readType hs]
    exact Protocol.bounded_of_ne (by simp) (by simp) hpending
  · rw [processByte_readSequence hs]
    exact Protocol.bounded_of_ne (by simp) (by simp) hpending
  · rw [processByte_readLength hs]
    split
    · exact Protocol.bounded_of_waitSof rfl hpending
    · rename_i hmax
      have hle : byte.toNat ≤ payloadSize := Nat.le_of_not_lt (mt length_gt_maxPayload.mpr hmax)
      refine ⟨fun hc => ⟨?_, hle⟩, fun hc => ⟨hle, ?_⟩, hpending⟩
      · have hne : byte ≠ 0 := by
          rintro rfl
          cases hc
        have hne' : byte.toNat ≠ 0 := fun heq => hne (BitVec.eq_of_toNat_eq heq)
        show 0 < byte.toNat
        omega
      · have hzero : byte = 0 := by
          by_contra hne
          dsimp only at hc
          rw [if_neg hne] at hc
          cases hc
        exact hzero.symm
  · obtain ⟨hindex, hlength⟩ := h.readPayload hs
    have hlt : p.payloadIndex.toNat < p.receivedFrame.length.toNat := hindex
    have hmax : p.payloadIndex < protocolMaxPayload := Nat.lt_of_lt_of_le hlt hlength
    rw [processByte_readPayload hs hindex hmax]
    refine ⟨fun hc => ⟨?_, hlength⟩, fun hc => ⟨hlength, ?_⟩, hpending⟩
    · have hne : p.payloadIndex + 1 ≠ p.receivedFrame.length := by
        intro heq
        dsimp only at hc
        rw [if_pos heq] at hc
        cases hc
      have hnext : (p.payloadIndex + 1).toNat = p.payloadIndex.toNat + 1 := by
        unfold payloadSize at hlength
        bv_omega
      have hne' : (p.payloadIndex + 1).toNat ≠ p.receivedFrame.length.toNat :=
        fun heq => hne (BitVec.eq_of_toNat_eq heq)
      show (p.payloadIndex + 1).toNat < p.receivedFrame.length.toNat
      omega
    · by_contra hne
      dsimp only at hc hne
      rw [if_neg hne] at hc
      cases hc
  · have hlength := (h.readCrc hs).1
    rw [processByte_readCrc hs]
    split
    · exact Protocol.bounded_of_waitSof rfl (pending_protocolHandleFrame hlength hpending)
    · exact Protocol.bounded_of_waitSof rfl hpending

/-- A check of the timeout leaves the parser as it was or outside a frame, in
bounds both ways. -/
theorem Protocol.Bounded.checkTimeout (h : p.Bounded) (nowMs : Word32) :
    (protocolCheckTimeout nowMs p).Bounded := by
  unfold protocolCheckTimeout
  split
  · exact Protocol.bounded_of_waitSof rfl h.pending
  · exact h

/-! ## What is sent -/

/-- The response that is taken out of its slot. -/
theorem checked_protocolGetResponse (h : s.pendingFrame.length.toNat ≤ payloadSize) :
    ∃ m, Checked.protocolGetResponse s = some m ∧ m.Carries s.pendingFrame.data := by
  have hcopied : Filled (fun i => if 0 ≤ i ∧ i < 0 + s.pendingFrame.data.length then
      s.pendingFrame.inMemory.payload (i - 0) else none) s.pendingFrame.data :=
    filled_nil.copy (ProtocolFrame.carries h).filled
  rw [length_data] at hcopied
  unfold Checked.protocolGetResponse
  rw [copy_eq h (by rw [Nat.zero_add]; exact h)]
  exact ⟨_, rfl, hcopied, length_data _, by rw [length_data]; exact h⟩

/-- The status that a `protocol_send_…` function makes. -/
theorem checked_statusFrame {kind : StatusKind} {sequence : Byte}
    (h : d.length ≤ payloadSize) :
    ∃ m, Checked.statusFrame kind sequence d = some m ∧ m.Carries d := by
  have hassigned : Filled (fun i => if 0 ≤ i ∧ i < 0 + d.length then d[i - 0]? else none) d :=
    filled_nil.copy fun i _ => rfl
  have hlt : d.length < 256 := Nat.lt_of_le_of_lt h (by decide)
  unfold Checked.statusFrame
  rw [narrow_eq hlt, Option.bind_eq_bind, Option.bind_some,
    copy_eq (Nat.le_refl _) (by rw [Nat.zero_add]; exact h)]
  refine ⟨_, rfl, hassigned, ?_, h⟩
  rw [BitVec.toNat_ofNat, Nat.mod_eq_of_lt hlt]

/-- **A frame in range is encoded within the array.** -/
theorem checked_encodeFrame (h : m.Carries d) :
    ∃ array length, Checked.encodeFrame m = some (array, length) ∧
      length.toNat = 6 + d.length ∧
      Filled array ([protocolSof, protocolVersion, m.type, m.sequence, m.length] ++ d ++
        [crc8Compute ([protocolVersion, m.type, m.sequence, m.length] ++ d)]) := by
  have hle : d.length ≤ 8 := h.length_le
  have hguard : ¬ m.length > protocolMaxPayload := by
    rw [length_gt_maxPayload, ← h.length_eq]
    omega
  have hheader : Filled (Function.update (Function.update (Function.update (Function.update
      (Function.update (fun _ => none) 0 (some protocolSof)) 1 (some protocolVersion)) 2
      (some m.type)) 3 (some m.sequence)) 4 (some m.length))
      [protocolSof, protocolVersion, m.type, m.sequence, m.length] :=
    (((filled_nil.store.store).store).store).store
  have hpayload := hheader.copy h.filled
  have hwhole := hpayload.store (a :=
    crc8Compute ([protocolVersion, m.type, m.sequence, m.length] ++ d))
  have hsize : 5 + d.length < maxFrameSize := by
    unfold maxFrameSize payloadSize
    omega
  have hlast : ([protocolSof, protocolVersion, m.type, m.sequence, m.length] ++ d).length =
      5 + d.length := by
    rw [List.length_append]
    rfl
  rw [hlast] at hwhole
  rw [Checked.encodeFrame, if_neg hguard, checked_protocolComputeCrc h, ← h.length_eq]
  simp only [store_eq (show 0 < maxFrameSize by decide), store_eq (show 1 < maxFrameSize by decide),
    store_eq (show 2 < maxFrameSize by decide), store_eq (show 3 < maxFrameSize by decide),
    store_eq (show 4 < maxFrameSize by decide), Option.bind_eq_bind, Option.bind_some,
    copy_eq h.length_le (Nat.le_of_lt hsize), store_eq hsize,
    narrow_eq (show 6 + d.length < 256 by omega)]
  refine ⟨_, _, rfl, ?_, hwhole⟩
  rw [BitVec.toNat_ofNat, Nat.mod_eq_of_lt (by omega)]

end SentryCell
