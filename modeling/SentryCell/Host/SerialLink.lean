import SentryCell.Host.Poller
import Mathlib.Data.List.GetD
/-!
# The serial link and the frame reader

`SerialLink.read_exact` of `supervisor/serial_link.py` and
`read_protocol_frame` of `supervisor/main.py`, on the bytes the port has
buffered. Nothing arrives while a call waits, so that a call which runs
out of bytes waits until its deadline. `Chunk` says how far one call of
the reader reads: as far as the fifth byte tells it to, whatever that is.
-/

namespace SentryCell.Host

/-- A method of the link: it returns or raises, and leaves bytes behind. -/
abbrev LinkM := ExceptT PyException (StateM (List Byte))

/-- The `SerialTimeoutError` of `read_exact`. -/
def readTimeout (size received : ℕ) : PyException :=
  ⟨"SerialTimeoutError", "timed out waiting for " ++ toString size ++ " bytes (received " ++
    toString received ++ ")", true⟩

/-- The loop of `read_exact`. With bytes buffered `select` returns at once
and `os.read` takes as many of them as it is asked for; with none it
returns at the deadline. -/
def readMore (size : ℕ) (received rx : List Byte) :
    Except PyException (List Byte) × List Byte :=
  if received.length < size then
    match rx with
    | [] => (.error (readTimeout size received.length), [])
    | byte :: rx' =>
      let wanted := size - received.length
      readMore size (received ++ (byte :: rx').take wanted) ((byte :: rx').drop wanted)
  else (.ok received, rx)
termination_by rx.length
decreasing_by
  simp only [List.length_drop, List.length_cons]
  omega

/-- `read_exact`. -/
def readExact (size : ℕ) : LinkM (List Byte) := readMore size []

/-- `read_protocol_frame`. -/
def readProtocolFrame : LinkM Frame := do
  let header ← readExact 5
  let payloadLength := (header.getD 4 0).toNat
  if payloadLength > maxPayload then
    throw ⟨"ProtocolError", "response LENGTH " ++ toString payloadLength ++ " exceeds " ++
      toString maxPayload ++ " bytes", false⟩
  -- the payload is asked for only once the header announced its length
  let payloadAndCrc ← readExact (payloadLength + 1)
  match decodeFrame (header ++ payloadAndCrc) with
  | .ok frame => return frame
  | .error error => throw error.exception

/-! ## What a call reads -/

variable {α β : Type} {size : ℕ} {rx x rest : List Byte} {frame : Frame}

/-- What returns hands its value and the bytes that are left to what
follows. -/
theorem link_bind_ok {m : LinkM α} {f : α → LinkM β} {a : α} (h : m rx = (.ok a, rest)) :
    (m >>= f) rx = f a rest := by
  simp only [bind, ExceptT.bind, ExceptT.mk, StateT.bind, h, ExceptT.bindCont]

/-- And what raises ends the whole, with the bytes that are left. -/
theorem link_bind_error {m : LinkM α} {f : α → LinkM β} {e : PyException}
    (h : m rx = (.error e, rest)) : (m >>= f) rx = (.error e, rest) := by
  simp only [bind, ExceptT.bind, ExceptT.mk, StateT.bind, h, ExceptT.bindCont]
  rfl

/-- A call for bytes that are there takes just these. -/
theorem readExact_ok (h : size ≤ rx.length) :
    readExact size rx = (.ok (rx.take size), rx.drop size) := by
  unfold readExact
  rw [readMore.eq_def]
  by_cases hsize : size = 0
  · subst hsize
    rfl
  rw [List.length_nil, if_pos (Nat.pos_of_ne_zero hsize)]
  rcases rx with _ | ⟨byte, rx⟩
  · rw [List.length_nil] at h
    omega
  · -- the second round has all it wants
    show readMore size ((byte :: rx).take size) ((byte :: rx).drop size) = _
    have hlen : ((byte :: rx).take size).length = size := List.length_take_of_le h
    rw [readMore.eq_def, if_neg (by omega)]

/-- A call for more than there are takes all of them, and raises
`SerialTimeoutError`. -/
theorem readExact_timeout (h : rx.length < size) :
    readExact size rx = (.error (readTimeout size rx.length), []) := by
  unfold readExact
  rw [readMore.eq_def, List.length_nil, if_pos (Nat.zero_lt_of_lt h)]
  rcases rx with _ | ⟨byte, rx⟩
  · rfl
  · have htake : (byte :: rx).take size = byte :: rx := List.take_of_length_le (Nat.le_of_lt h)
    have hdrop : (byte :: rx).drop size = [] := List.drop_of_length_le (Nat.le_of_lt h)
    show readMore size ((byte :: rx).take size) ((byte :: rx).drop size) = _
    rw [htake, hdrop, readMore.eq_def, if_pos h]

/-- What the fifth byte announces, or 0 with fewer. -/
def announced (x : List Byte) : ℕ := (x.getD 4 0).toNat

/-- How many bytes a call reads when they are there: a header alone, if it
announces too long a payload. -/
def readSize (x : List Byte) : ℕ :=
  if announced x > maxPayload then 5 else 6 + announced x

/-- A header of five bytes is always asked for, whatever it then announces. -/
theorem five_le_readSize (x : List Byte) : 5 ≤ readSize x := by
  unfold readSize
  split <;> omega

/-- What the header announces does not depend on the bytes behind it. -/
theorem announced_append (h : 5 ≤ x.length) : announced (x ++ rest) = announced x := by
  unfold announced
  rw [List.getD_append x rest 0 4 h]

/-- The header alone announces what the whole string announces. -/
theorem announced_take (h : 5 ≤ rx.length) : announced (rx.take 5) = announced rx := by
  have hsplit : announced (rx.take 5 ++ rx.drop 5) = announced (rx.take 5) :=
    announced_append (List.length_take_of_le h).ge
  rw [← hsplit, List.take_append_drop]

/-- **A chunk**: the bytes that one call of the reader reads. -/
def Chunk (x : List Byte) : Prop := x.length = readSize x

instance (x : List Byte) : Decidable (Chunk x) := inferInstanceAs (Decidable (_ = _))

/-- What a call makes of a chunk. -/
def readChunk (x : List Byte) : Except PyException Frame :=
  if announced x > maxPayload then
    .error ⟨"ProtocolError", "response LENGTH " ++ toString (announced x) ++ " exceeds " ++
      toString maxPayload ++ " bytes", false⟩
  else
    match decodeFrame x with
    | .ok frame => .ok frame
    | .error error => .error error.exception

/-- What a whole chunk raises is no timeout, so that the receive buffer is
left as it is. -/
theorem readChunk_error {error : PyException} (h : readChunk x = .error error) :
    error.serialTimeout = false := by
  unfold readChunk at h
  split at h
  · obtain rfl := Except.error.inj h
    rfl
  rcases hdecode : decodeFrame x with e | frame
  · rw [hdecode] at h
    obtain rfl := Except.error.inj h
    exact exception_serialTimeout e
  · rw [hdecode] at h
    cases h

/-- What `read_protocol_frame` returns is the frame that the bytes it read
encode. -/
theorem readChunk_ok (h : readChunk x = .ok frame) : decodeFrame x = .ok frame := by
  unfold readChunk at h
  split at h
  · cases h
  rcases hdecode : decodeFrame x with e | frame'
  · rw [hdecode] at h
    cases h
  · rw [hdecode] at h
    exact congrArg Except.ok (Except.ok.inj h)

/-- **A call reads the chunk in front**, and leaves the rest. -/
theorem readProtocolFrame_chunk (h : Chunk x) :
    readProtocolFrame (x ++ rest) = (readChunk x, rest) := by
  have hfive : 5 ≤ x.length := h ▸ five_le_readSize x
  have hheader : readExact 5 (x ++ rest) = (.ok (x.take 5), x.drop 5 ++ rest) := by
    rw [readExact_ok (by rw [List.length_append]; omega), List.take_append_of_le_length hfive,
      List.drop_append_of_le_length hfive]
  unfold readProtocolFrame
  rw [link_bind_ok hheader]
  have hannounced : ((x.take 5).getD 4 0).toNat = announced x := announced_take hfive
  simp only [hannounced]
  unfold Chunk readSize at h
  unfold readChunk
  by_cases hlen : announced x > maxPayload
  · have hall : x.drop 5 = [] := List.drop_of_length_le (by rw [h, if_pos hlen])
    rw [if_pos hlen, if_pos hlen, hall]
    rfl
  · rw [if_neg hlen] at h
    rw [if_neg hlen, if_neg hlen]
    have hpayload : readExact (announced x + 1) (x.drop 5 ++ rest) = (.ok (x.drop 5), rest) := by
      have hsize : (x.drop 5).length = announced x + 1 := by
        rw [List.length_drop]
        omega
      rw [← hsize, readExact_ok (by rw [List.length_append]; omega), List.take_left,
        List.drop_left]
    show (readExact (announced x + 1) >>= _) (x.drop 5 ++ rest) = _
    rw [link_bind_ok hpayload, List.take_append_drop]
    rcases decodeFrame x with error | frame <;> rfl

/-- **A call that runs out of bytes** takes them all, and times out. -/
theorem readProtocolFrame_timeout
    (h : rx.length < 5 ∨ announced rx ≤ maxPayload ∧ rx.length < 6 + announced rx) :
    ∃ error, readProtocolFrame rx = (.error error, []) ∧ error.serialTimeout = true := by
  by_cases hfive : rx.length < 5
  · exact ⟨_, link_bind_error (readExact_timeout hfive), rfl⟩
  obtain ⟨hlen, hsize⟩ := h.resolve_left hfive
  have hannounced : ((rx.take 5).getD 4 0).toNat = announced rx :=
    announced_take (Nat.le_of_not_lt hfive)
  have hpayload : (rx.drop 5).length < announced rx + 1 := by
    rw [List.length_drop]
    omega
  refine ⟨readTimeout (announced rx + 1) (rx.drop 5).length, ?_, rfl⟩
  unfold readProtocolFrame
  rw [link_bind_ok (readExact_ok (Nat.le_of_not_lt hfive))]
  simp only [hannounced]
  rw [if_neg (Nat.not_lt.mpr hlen)]
  exact link_bind_error (readExact_timeout hpayload)

end SentryCell.Host
