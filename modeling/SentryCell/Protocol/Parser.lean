import SentryCell.Protocol.Slots
/-!
# The byte parser

`protocol_process_byte` and `protocol_check_timeout` of
`firmware/protocol/protocol.c`. The slots are a part of the state that the
parser hands to `protocol_handle_frame` and touches in no other way:
`handledFrame` is the frame it hands over on a byte, and
`slots_protocolProcessByte` says that this is all a byte does to them.
-/

namespace SentryCell

def protocolInterbyteTimeoutMs : Word32 := 100#32

/-- `protocol_parser_state_t`. -/
inductive ParserState where
  | waitSof
  | readVersion
  | readType
  | readSequence
  | readLength
  | readPayload
  | readCrc
  deriving DecidableEq, Repr

/-- The static variables of `protocol.c`. -/
structure Protocol where
  parserState : ParserState
  receivedFrame : ProtocolFrame
  payloadIndex : Byte
  lastByteMs : Word32
  parserTimeoutCount : Byte
  crcErrorCount : Byte
  slots : Slots

/-- `protocol_reset_parser`. The payload keeps its bytes. -/
def protocolResetParser (p : Protocol) : Protocol :=
  { p with
    parserState := .waitSof
    receivedFrame := { p.receivedFrame with type := 0, sequence := 0, length := 0 }
    payloadIndex := 0
    lastByteMs := 0 }

/-- `protocol_increment_saturating`. -/
def protocolIncrementSaturating (counter : Byte) : Byte :=
  if counter ≠ 255 then counter + 1 else counter

/-- `protocol_init`. -/
def protocolInit (p : Protocol) : Protocol :=
  { protocolResetParser p with
    parserTimeoutCount := 0
    crcErrorCount := 0
    slots := {
      pendingFrame := { p.slots.pendingFrame with type := 0, sequence := 0, length := 0 }
      responsePending := 0
      requestPending := fun _ => 0
      sequence := fun _ => 0
      watchdogBlockRequestPending := 0 } }

/-- Static storage before `main`: all zero. -/
def Protocol.zeroed : Protocol where
  parserState := .waitSof
  receivedFrame := ⟨0, 0, 0, fun _ => 0⟩
  payloadIndex := 0
  lastByteMs := 0
  parserTimeoutCount := 0
  crcErrorCount := 0
  slots := ⟨⟨0, 0, 0, fun _ => 0⟩, 0, fun _ => 0, fun _ => 0, 0⟩

/-- The `switch` of `protocol_process_byte`. -/
def protocolSwitch (byte : Byte) (nowMs : Word32) (p : Protocol) : Protocol :=
  match p.parserState with
  | .waitSof =>
    if byte = protocolSof then
      { protocolResetParser p with parserState := .readVersion, lastByteMs := nowMs }
    else p
  | .readVersion =>
    if byte = protocolVersion then { p with parserState := .readType } else protocolResetParser p
  | .readType =>
    { p with
      receivedFrame := { p.receivedFrame with type := byte }
      parserState := .readSequence }
  | .readSequence =>
    { p with
      receivedFrame := { p.receivedFrame with sequence := byte }
      parserState := .readLength }
  | .readLength =>
    let p := { p with
      receivedFrame := { p.receivedFrame with length := byte }
      payloadIndex := 0 }
    -- neither count rises for a length above eight
    if byte > protocolMaxPayload then protocolResetParser p
    else if byte = 0 then { p with parserState := .readCrc }
    else { p with parserState := .readPayload }
  | .readPayload =>
    if p.payloadIndex < p.receivedFrame.length ∧ p.payloadIndex < protocolMaxPayload then
      let p := { p with
        receivedFrame := { p.receivedFrame with
          payload := Function.update p.receivedFrame.payload p.payloadIndex.toNat byte }
        payloadIndex := p.payloadIndex + 1 }
      if p.payloadIndex = p.receivedFrame.length then { p with parserState := .readCrc } else p
    -- the index cannot have passed the length
    else protocolResetParser p
  | .readCrc =>
    if byte = protocolComputeCrc p.receivedFrame then
      protocolResetParser { p with slots := protocolHandleFrame p.receivedFrame p.slots }
    else
      protocolResetParser { p with crcErrorCount := protocolIncrementSaturating p.crcErrorCount }

/-- `protocol_process_byte`. -/
def protocolProcessByte (byte : Byte) (nowMs : Word32) (p : Protocol) : Protocol :=
  -- a byte inside a frame restarts its time-out, whatever it is
  protocolSwitch byte nowMs
    (if p.parserState ≠ .waitSof then { p with lastByteMs := nowMs } else p)

/-- `protocol_check_timeout`. -/
def protocolCheckTimeout (nowMs : Word32) (p : Protocol) : Protocol :=
  if p.parserState ≠ .waitSof ∧ nowMs - p.lastByteMs ≥ protocolInterbyteTimeoutMs then
    let p := protocolResetParser p
    { p with parserTimeoutCount := protocolIncrementSaturating p.parserTimeoutCount }
  else p

/-- The frame `protocol_handle_frame` is called with on a byte. -/
def handledFrame (byte : Byte) (p : Protocol) : Option ProtocolFrame :=
  if p.parserState = .readCrc ∧ byte = protocolComputeCrc p.receivedFrame then
    some p.receivedFrame
  else none

variable {byte : Byte} {nowMs : Word32} {p : Protocol}

@[simp] theorem slots_protocolResetParser : (protocolResetParser p).slots = p.slots := rfl

@[simp] theorem crcErrorCount_protocolResetParser :
    (protocolResetParser p).crcErrorCount = p.crcErrorCount := rfl

@[simp] theorem parserState_protocolResetParser :
    (protocolResetParser p).parserState = .waitSof := rfl

/-- The error counters stop at 255, where a further error leaves them. -/
theorem toNat_protocolIncrementSaturating (c : Byte) :
    (protocolIncrementSaturating c).toNat = min 255 (c.toNat + 1) := by
  have hlt := c.isLt
  unfold protocolIncrementSaturating
  by_cases h : c = 255
  · rw [if_neg (not_not.mpr h), h]
    decide
  · have hne : c.toNat ≠ 255 := fun he => h (BitVec.eq_of_toNat_eq he)
    rw [if_pos h, BitVec.toNat_add]
    show (c.toNat + 1) % 256 = _
    omega

/-! ## A byte, state by state -/

/-- Outside a frame only the start byte counts; it clears what an earlier
frame has left. -/
theorem processByte_waitSof (h : p.parserState = .waitSof) :
    protocolProcessByte byte nowMs p =
      if byte = protocolSof then
        { protocolResetParser p with parserState := .readVersion, lastByteMs := nowMs }
      else p := by
  obtain ⟨_, _, _, _, _, _, _⟩ := p
  subst h
  rfl

/-- A wrong version sends the parser back to the start, and no counter tells
of it. -/
theorem processByte_readVersion (h : p.parserState = .readVersion) :
    protocolProcessByte byte nowMs p =
      if byte = protocolVersion then { p with lastByteMs := nowMs, parserState := .readType }
      else protocolResetParser p := by
  obtain ⟨_, _, _, _, _, _, _⟩ := p
  subst h
  rfl

theorem processByte_readType (h : p.parserState = .readType) :
    protocolProcessByte byte nowMs p =
      { p with
        lastByteMs := nowMs
        receivedFrame := { p.receivedFrame with type := byte }
        parserState := .readSequence } := by
  obtain ⟨_, _, _, _, _, _, _⟩ := p
  subst h
  rfl

theorem processByte_readSequence (h : p.parserState = .readSequence) :
    protocolProcessByte byte nowMs p =
      { p with
        lastByteMs := nowMs
        receivedFrame := { p.receivedFrame with sequence := byte }
        parserState := .readLength } := by
  obtain ⟨_, _, _, _, _, _, _⟩ := p
  subst h
  rfl

/-- A length over eight is refused here, before any byte of the payload is
stored; a length of zero goes straight to the check. -/
theorem processByte_readLength (h : p.parserState = .readLength) :
    protocolProcessByte byte nowMs p =
      if byte > protocolMaxPayload then protocolResetParser p
      else
        { p with
          lastByteMs := nowMs
          receivedFrame := { p.receivedFrame with length := byte }
          payloadIndex := 0
          parserState := if byte = 0 then .readCrc else .readPayload } := by
  obtain ⟨_, _, _, _, _, _, _⟩ := p
  subst h
  unfold protocolProcessByte protocolSwitch
  by_cases h0 : byte = 0
  · rw [h0]
    rfl
  · rw [if_neg h0]
    simp only [ne_eq, reduceCtorEq, not_false_eq_true, if_true, if_neg h0]
    rfl

/-- While the payload is read, the index stays within it. -/
theorem processByte_readPayload (h : p.parserState = .readPayload)
    (hi : p.payloadIndex < p.receivedFrame.length) (h8 : p.payloadIndex < protocolMaxPayload) :
    protocolProcessByte byte nowMs p =
      { p with
        lastByteMs := nowMs
        receivedFrame := { p.receivedFrame with
          payload := Function.update p.receivedFrame.payload p.payloadIndex.toNat byte }
        payloadIndex := p.payloadIndex + 1
        parserState :=
          if p.payloadIndex + 1 = p.receivedFrame.length then .readCrc else .readPayload } := by
  obtain ⟨_, frame, index, _, _, _, _⟩ := p
  subst h
  unfold protocolProcessByte protocolSwitch
  simp only [ne_eq, reduceCtorEq, not_false_eq_true, if_true]
  rw [if_pos ⟨hi, h8⟩]
  split_ifs <;> rfl

/-- The last byte decides: the frame is handled, or the error is counted, and
the parser starts anew in both cases. -/
theorem processByte_readCrc (h : p.parserState = .readCrc) :
    protocolProcessByte byte nowMs p =
      if byte = protocolComputeCrc p.receivedFrame then
        protocolResetParser { p with slots := protocolHandleFrame p.receivedFrame p.slots }
      else
        protocolResetParser
          { p with crcErrorCount := protocolIncrementSaturating p.crcErrorCount } := by
  obtain ⟨_, _, _, _, _, _, _⟩ := p
  subst h
  rfl

/-- No byte but the last one of a frame hands anything over. -/
theorem handledFrame_of_ne (h : p.parserState ≠ .readCrc) : handledFrame byte p = none := by
  rw [handledFrame, if_neg fun hc => h hc.1]

/-- **All a byte does to the slots** is the call of `protocol_handle_frame`. -/
theorem slots_protocolProcessByte (byte : Byte) (nowMs : Word32) (p : Protocol) :
    (protocolProcessByte byte nowMs p).slots =
      match handledFrame byte p with
      | some frame => protocolHandleFrame frame p.slots
      | none => p.slots := by
  rcases hs : p.parserState with _ | _ | _ | _ | _ | _ | _
  · rw [handledFrame_of_ne (by simp [hs]), processByte_waitSof hs]
    split <;> rfl
  · rw [handledFrame_of_ne (by simp [hs]), processByte_readVersion hs]
    split <;> rfl
  · rw [handledFrame_of_ne (by simp [hs]), processByte_readType hs]
  · rw [handledFrame_of_ne (by simp [hs]), processByte_readSequence hs]
  · rw [handledFrame_of_ne (by simp [hs]), processByte_readLength hs]
    split <;> rfl
  · rw [handledFrame_of_ne (by simp [hs])]
    by_cases hi : p.payloadIndex < p.receivedFrame.length ∧ p.payloadIndex < protocolMaxPayload
    · rw [processByte_readPayload hs hi.1 hi.2]
    · unfold protocolProcessByte protocolSwitch
      simp only [ne_eq, hs, reduceCtorEq, not_false_eq_true, if_true, if_neg hi]
      rfl
  · rw [processByte_readCrc hs, handledFrame]
    by_cases hc : byte = protocolComputeCrc p.receivedFrame
    · rw [if_pos hc, if_pos ⟨hs, hc⟩]
      rfl
    · rw [if_neg hc, if_neg fun h => hc h.2]
      rfl

/-- A timeout check touches no slot. -/
@[simp] theorem slots_protocolCheckTimeout : (protocolCheckTimeout nowMs p).slots = p.slots := by
  unfold protocolCheckTimeout
  split <;> rfl

end SentryCell
