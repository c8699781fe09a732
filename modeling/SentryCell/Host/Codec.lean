import SentryCell.Protocol.Crc8
import Mathlib.Data.Int.Notation
/-!
# The supervisor's codec

`supervisor/protocol.py`: `crc8_atm`, `encode_frame` and `decode_frame`.
Python's integers are `ℤ`, or `ℕ` where they cannot be negative, its
`bytes` are lists of bytes, and an exception is the error side of
`Except` with its message. `decodeFrame_eq_ok_iff` says which byte strings
are accepted; both round trips are read off it and `encodeFrame_octets`.
-/

namespace SentryCell.Host

def sof : Byte := 0xA5#8
def version : Byte := 0x01#8
def maxPayload : ℕ := 8

/-- The exceptions the codec raises. `CRCError` is a `ProtocolError`. -/
inductive PyError where
  | protocolError (message : String)
  | crcError (message : String)
  | valueError (message : String)
  deriving DecidableEq, Repr

structure Frame where
  frameType : ℤ
  sequence : ℤ
  payload : List Byte
  deriving DecidableEq, Repr

/-- The format `02X`. -/
def hex02 (n : ℕ) : String :=
  let digits := (Nat.toDigits 16 n).map Char.toUpper
  String.ofList (List.replicate (2 - digits.length) '0' ++ digits)

/-- One round of the inner loop of `crc8_atm`. -/
def crc8AtmShift (crc : ℕ) : ℕ :=
  if crc &&& 0x80 ≠ 0 then ((crc <<< 1) ^^^ 0x07) &&& 0xFF else (crc <<< 1) &&& 0xFF

/-- `crc8_atm`. -/
def crc8Atm (data : List Byte) : ℕ :=
  data.foldl (fun crc byte => crc8AtmShift^[8] (crc ^^^ byte.toNat)) 0x00

/-- `_validate_octet`. -/
def validateOctet (name : String) (value : ℤ) : Except PyError Unit :=
  if 0 ≤ value ∧ value ≤ 0xFF then .ok ()
  else .error (.protocolError (name ++ " must be in range 0..255"))

/-- `bytes` of a tuple of integers. -/
def pyBytes (values : List ℤ) : Except PyError (List Byte) :=
  if ∀ v ∈ values, 0 ≤ v ∧ v ≤ 255 then .ok (values.map (BitVec.ofInt 8))
  else .error (.valueError "bytes must be in range(0, 256)")

/-- `encode_frame`. -/
def encodeFrame (frame : Frame) : Except PyError (List Byte) := do
  validateOctet "frame_type" frame.frameType
  validateOctet "sequence" frame.sequence
  if frame.payload.length > maxPayload then
    throw (.protocolError ("payload length " ++ toString frame.payload.length ++ " exceeds " ++
      toString maxPayload ++ " bytes"))
  let header ← pyBytes [version.toNat, frame.frameType, frame.sequence, frame.payload.length]
  let body := header ++ frame.payload
  let check ← pyBytes [crc8Atm body]
  return [sof] ++ body ++ check

/-- `decode_frame`. -/
def decodeFrame (data : List Byte) : Except PyError Frame :=
  if data.length < 6 then
    .error (.protocolError "frame is shorter than the 6-byte minimum")
  else if data.getD 0 0 ≠ sof then
    .error (.protocolError ("invalid SOF 0x" ++ hex02 (data.getD 0 0).toNat))
  else if data.getD 1 0 ≠ version then
    .error (.protocolError ("unsupported protocol version 0x" ++ hex02 (data.getD 1 0).toNat))
  else
    let payloadLength := (data.getD 4 0).toNat
    if payloadLength > maxPayload then
      .error (.protocolError ("payload length " ++ toString payloadLength ++ " exceeds " ++
        toString maxPayload ++ " bytes"))
    else
      let expectedSize := 6 + payloadLength
      if data.length ≠ expectedSize then
        .error (.protocolError ("frame size " ++ toString data.length ++
          " does not match LENGTH " ++ toString payloadLength ++ " (expected " ++
          toString expectedSize ++ ")"))
      else
        let expectedCrc := crc8Atm (data.drop 1).dropLast
        if (data.getLastD 0).toNat ≠ expectedCrc then
          .error (.crcError ("CRC mismatch: received 0x" ++ hex02 (data.getLastD 0).toNat ++
            ", expected 0x" ++ hex02 expectedCrc))
        else
          .ok {
            frameType := (data.getD 2 0).toNat
            sequence := (data.getD 3 0).toNat
            payload := (data.drop 5).take payloadLength }

/-! ## The two checksums -/

/-- One shift of the supervisor's checksum, on integers, is one of the
firmware's, on bytes. -/
theorem crc8AtmShift_toNat (crc : Byte) : crc8AtmShift crc.toNat = (crc8Shift crc).toNat := by
  revert crc
  decide +kernel

/-- Any number of shifts agree as well, and eight of them are one byte of the
checksum. -/
theorem iterate_crc8AtmShift_toNat (k : ℕ) (crc : Byte) :
    crc8AtmShift^[k] crc.toNat = (crc8Shift^[k] crc).toNat := by
  induction k generalizing crc with
  | zero => rfl
  | succ k ih => rw [Function.iterate_succ_apply, crc8AtmShift_toNat, ih]; rfl

/-- **The supervisor's checksum is the firmware's**, over any data. -/
theorem crc8Atm_eq (data : List Byte) : crc8Atm data = (crc8Compute data).toNat := by
  have hfold : ∀ (data : List Byte) (crc : Byte),
      data.foldl (fun crc byte => crc8AtmShift^[8] (crc ^^^ byte.toNat)) crc.toNat =
        (data.foldl (fun crc byte => crc8Shift^[8] (crc ^^^ byte)) crc).toNat := by
    intro data
    induction data with
    | nil =>
      intro crc
      rfl
    | cons b data ih =>
      intro crc
      rw [List.foldl_cons, List.foldl_cons, ← BitVec.toNat_xor, iterate_crc8AtmShift_toNat, ih]
  exact hfold data 0

/-! ## The frame on the wire -/

/-- What the checksum of a frame covers. -/
def frameBody (type sequence : Byte) (payload : List Byte) : List Byte :=
  version :: type :: sequence :: BitVec.ofNat 8 payload.length :: payload

/-- A frame on the wire. -/
def frameBytes (type sequence : Byte) (payload : List Byte) : List Byte :=
  sof :: (frameBody type sequence payload ++ [crc8Compute (frameBody type sequence payload)])

variable {type sequence : Byte} {payload data : List Byte} {frame : Frame}

/-- A frame takes six bytes besides those of its payload. -/
@[simp] theorem length_frameBytes :
    (frameBytes type sequence payload).length = 6 + payload.length := by
  simp [frameBytes, frameBody]
  omega

/-- A byte is a valid octet, under any name. -/
theorem validateOctet_byte (name : String) (b : Byte) : validateOctet name b.toNat = .ok () := by
  have := b.isLt
  rw [validateOctet, if_pos (by omega)]

/-- `bytes` of the values of bytes are these bytes. -/
theorem pyBytes_toNat (bs : List Byte) :
    pyBytes (bs.map fun b => (b.toNat : ℤ)) = .ok bs := by
  rw [pyBytes, if_pos]
  · congr 1
    rw [List.map_map]
    conv_rhs => rw [← List.map_id bs]
    refine List.map_congr_left fun b _ => ?_
    simp
  · intro v hv
    obtain ⟨b, -, rfl⟩ := List.mem_map.mp hv
    have := b.isLt
    omega

/-- **What `encode_frame` makes of octets**, with a payload that fits, are the
bytes of the frame. -/
theorem encodeFrame_octets (hp : payload.length ≤ maxPayload) :
    encodeFrame ⟨type.toNat, sequence.toNat, payload⟩ = .ok (frameBytes type sequence payload) := by
  have hlen : (payload.length : ℤ) = ((BitVec.ofNat 8 payload.length).toNat : ℤ) := by
    unfold maxPayload at hp
    rw [BitVec.toNat_ofNat, Nat.mod_eq_of_lt (by omega)]
  have hheader : pyBytes [version.toNat, type.toNat, sequence.toNat, payload.length] =
      .ok [version, type, sequence, BitVec.ofNat 8 payload.length] := by
    rw [hlen]
    exact pyBytes_toNat [version, type, sequence, BitVec.ofNat 8 payload.length]
  have hcheck : pyBytes [(crc8Atm (frameBody type sequence payload) : ℤ)] =
      .ok [crc8Compute (frameBody type sequence payload)] := by
    rw [crc8Atm_eq]
    exact pyBytes_toNat [crc8Compute (frameBody type sequence payload)]
  unfold encodeFrame
  rw [validateOctet_byte, validateOctet_byte, hheader, if_neg (Nat.not_lt.mpr hp)]
  show (do
    let check ← pyBytes [(crc8Atm (frameBody type sequence payload) : ℤ)]
    return [sof] ++ frameBody type sequence payload ++ check) = _
  rw [hcheck]
  rfl

/-- A byte string of the length of a frame, split at the places where
`decode_frame` looks: five bytes, the payload and the checksum. -/
theorem eq_cons_of_length {n : ℕ} (h : data.length = 6 + n) :
    ∃ b0 b1 b2 b3 b4 mid last, mid.length = n ∧
      data = b0 :: b1 :: b2 :: b3 :: b4 :: (mid ++ [last]) := by
  rcases data with _ | ⟨b0, _ | ⟨b1, _ | ⟨b2, _ | ⟨b3, _ | ⟨b4, rest⟩⟩⟩⟩⟩
  any_goals
    simp only [List.length_nil, List.length_cons] at h
    omega
  have hne : rest ≠ [] := by
    rintro rfl
    simp only [List.length_nil, List.length_cons] at h
    omega
  refine ⟨b0, b1, b2, b3, b4, rest.dropLast, rest.getLast hne, ?_, ?_⟩
  · simp only [List.length_cons, List.length_dropLast] at h ⊢
    omega
  · rw [List.dropLast_append_getLast hne]

/-- `decode_frame` on a byte string split where it looks. -/
theorem decodeFrame_cons {b0 b1 b2 b3 b4 last : Byte} {mid : List Byte} :
    decodeFrame (b0 :: b1 :: b2 :: b3 :: b4 :: (mid ++ [last])) = .ok frame ↔
      b0 = sof ∧ b1 = version ∧ b4.toNat ≤ maxPayload ∧ mid.length = b4.toNat ∧
        last = crc8Compute (b1 :: b2 :: b3 :: b4 :: mid) ∧
        frame = ⟨b2.toNat, b3.toNat, mid⟩ := by
  have hcrc : crc8Atm ((b0 :: b1 :: b2 :: b3 :: b4 :: (mid ++ [last])).drop 1).dropLast =
      (crc8Compute (b1 :: b2 :: b3 :: b4 :: mid)).toNat := by
    have hcut : ((b0 :: b1 :: b2 :: b3 :: b4 :: (mid ++ [last])).drop 1).dropLast =
        b1 :: b2 :: b3 :: b4 :: mid := by
      show ((b1 :: b2 :: b3 :: b4 :: mid) ++ [last]).dropLast = _
      rw [List.dropLast_concat]
    rw [hcut, crc8Atm_eq]
  have hlast : (b0 :: b1 :: b2 :: b3 :: b4 :: (mid ++ [last])).getLastD 0 = last := by
    rw [List.getLastD_eq_getLast?]
    exact congrArg (Option.getD · 0)
      (List.getLast?_concat (l := b0 :: b1 :: b2 :: b3 :: b4 :: mid))
  have hlength : (b0 :: b1 :: b2 :: b3 :: b4 :: (mid ++ [last])).length = 6 + mid.length := by
    simp only [List.length_cons, List.length_append, List.length_nil]
    omega
  unfold decodeFrame
  rw [hcrc, hlast, hlength]
  simp only [List.getD_cons_zero, List.getD_cons_succ, List.drop_succ_cons, List.drop_zero]
  rw [if_neg (by omega)]
  by_cases h0 : b0 = sof
  swap
  · simp [h0]
  by_cases h1 : b1 = version
  swap
  · simp [h1, h0]
  by_cases h4 : b4.toNat ≤ maxPayload
  swap
  · simp [h0, h1, h4, Nat.lt_of_not_le h4]
  by_cases hmid : mid.length = b4.toNat
  swap
  · simp [h0, h1, h4, hmid, Nat.not_lt.mpr h4]
  by_cases hc : last = crc8Compute (b1 :: b2 :: b3 :: b4 :: mid)
  swap
  · have hne : last.toNat ≠ (crc8Compute (b1 :: b2 :: b3 :: b4 :: mid)).toNat :=
      fun h => hc (BitVec.eq_of_toNat_eq h)
    rw [if_neg (not_not.mpr h0), if_neg (not_not.mpr h1), if_neg (Nat.not_lt.mpr h4),
      if_neg (not_not.mpr (by rw [hmid])), if_pos hne]
    simp [hc]
  have htake : (mid ++ [last]).take b4.toNat = mid := by
    rw [← hmid, List.take_left]
  rw [if_neg (not_not.mpr h0), if_neg (not_not.mpr h1), if_neg (Nat.not_lt.mpr h4),
    if_neg (not_not.mpr (by rw [hmid])), if_neg (not_not.mpr (by rw [hc])), htake]
  simp [h0, h1, h4, hmid, hc, eq_comm]

/-- **Which byte strings `decode_frame` accepts**, and as what: the frames
on the wire. -/
theorem decodeFrame_eq_ok_iff : decodeFrame data = .ok frame ↔
    ∃ type sequence payload, payload.length ≤ maxPayload ∧
      data = frameBytes type sequence payload ∧
      frame = ⟨type.toNat, sequence.toNat, payload⟩ := by
  constructor
  · intro h
    have hlen : 6 ≤ data.length := by
      by_contra hlt
      rw [decodeFrame, if_pos (Nat.lt_of_not_le hlt)] at h
      cases h
    obtain ⟨n, hn⟩ := Nat.exists_eq_add_of_le hlen
    obtain ⟨b0, b1, b2, b3, b4, mid, last, -, rfl⟩ := eq_cons_of_length hn
    obtain ⟨rfl, rfl, h4, hmid, rfl, rfl⟩ := decodeFrame_cons.mp h
    have hb4 : BitVec.ofNat 8 mid.length = b4 := by
      rw [hmid]
      simp
    refine ⟨b2, b3, mid, by omega, ?_, rfl⟩
    rw [frameBytes, frameBody, hb4]
    rfl
  · rintro ⟨type, sequence, payload, hp, rfl, rfl⟩
    have hlen : (BitVec.ofNat 8 payload.length).toNat = payload.length := by
      unfold maxPayload at hp
      rw [BitVec.toNat_ofNat, Nat.mod_eq_of_lt (by omega)]
    refine decodeFrame_cons.mpr ⟨rfl, rfl, ?_, ?_, rfl, rfl⟩
    · rw [hlen]
      exact hp
    · exact hlen.symm

/-! ## Round trips -/

/-- The frames `encode_frame` accepts. -/
def Frame.Encodable (f : Frame) : Prop :=
  (0 ≤ f.frameType ∧ f.frameType ≤ 255) ∧ (0 ≤ f.sequence ∧ f.sequence ≤ 255) ∧
    f.payload.length ≤ 8

instance (f : Frame) : Decidable f.Encodable := inferInstanceAs (Decidable (_ ∧ _))

/-- An encodable frame is one whose type and sequence are octets. -/
theorem Frame.Encodable.octets (h : frame.Encodable) :
    ∃ type sequence : Byte, frame = ⟨type.toNat, sequence.toNat, frame.payload⟩ := by
  obtain ⟨⟨ht, ht'⟩, ⟨hs, hs'⟩, -⟩ := h
  have hoctet : ∀ v : ℤ, 0 ≤ v → v ≤ 255 → ((BitVec.ofNat 8 v.toNat).toNat : ℤ) = v := by
    intro v h0 h1
    rw [BitVec.toNat_ofNat, Nat.mod_eq_of_lt (by omega)]
    omega
  refine ⟨BitVec.ofNat 8 frame.frameType.toNat, BitVec.ofNat 8 frame.sequence.toNat, ?_⟩
  rw [hoctet _ ht ht', hoctet _ hs hs']

/-- **What is encoded is decoded to the same frame.** -/
theorem decodeFrame_encodeFrame (h : frame.Encodable) :
    ∃ data, encodeFrame frame = .ok data ∧ decodeFrame data = .ok frame := by
  obtain ⟨type, sequence, hf⟩ := h.octets
  have hp : frame.payload.length ≤ maxPayload := h.2.2
  refine ⟨frameBytes type sequence frame.payload, ?_, ?_⟩
  · rw [hf]
    exact encodeFrame_octets hp
  · exact decodeFrame_eq_ok_iff.mpr ⟨type, sequence, frame.payload, hp, rfl, hf⟩

/-- **What is decoded is encoded to the same bytes.** -/
theorem encodeFrame_decodeFrame (h : decodeFrame data = .ok frame) :
    encodeFrame frame = .ok data := by
  obtain ⟨type, sequence, payload, hp, rfl, rfl⟩ := decodeFrame_eq_ok_iff.mp h
  exact encodeFrame_octets hp

/-- What is no octet is rejected, under its name. -/
theorem validateOctet_error {name : String} {v : ℤ} (h : ¬ (0 ≤ v ∧ v ≤ 255)) :
    validateOctet name v = .error (.protocolError (name ++ " must be in range 0..255")) := by
  rw [validateOctet, if_neg h]

/-- **A frame that is not encodable raises**, and the error names what is
wrong with it. -/
theorem encodeFrame_error (h : ¬ frame.Encodable) :
    ∃ message, encodeFrame frame = .error (.protocolError message) := by
  unfold encodeFrame
  by_cases ht : 0 ≤ frame.frameType ∧ frame.frameType ≤ 255
  swap
  · exact ⟨_, by rw [validateOctet_error ht]; rfl⟩
  by_cases hs : 0 ≤ frame.sequence ∧ frame.sequence ≤ 255
  swap
  · exact ⟨_, by rw [validateOctet_error hs, validateOctet, if_pos ht]; rfl⟩
  have hp : frame.payload.length > maxPayload := by
    by_contra hp
    exact h ⟨ht, hs, Nat.le_of_not_lt hp⟩
  rw [validateOctet, if_pos ht, validateOctet, if_pos hs, if_pos hp]
  exact ⟨_, rfl⟩

/-- Whatever is encoded is a frame that is decoded. -/
theorem decodeFrame_of_encodeFrame (h : encodeFrame frame = .ok data) :
    decodeFrame data = .ok frame := by
  by_cases hf : frame.Encodable
  · obtain ⟨data', hdata, hdecode⟩ := decodeFrame_encodeFrame hf
    obtain rfl := Except.ok.inj (hdata.symm.trans h)
    exact hdecode
  · obtain ⟨message, herror⟩ := encodeFrame_error hf
    rw [h] at herror
    cases herror

end SentryCell.Host
