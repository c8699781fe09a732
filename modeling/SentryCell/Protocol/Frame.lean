import SentryCell.Hal.UartTx
import SentryCell.Host.Codec
/-!
# Frames, and how the firmware sends one

`protocol_frame_t`, `protocol_compute_crc` and `protocol_send_frame` of
`firmware/protocol/protocol.c`. The encoder is bytewise and has nothing in
common with the supervisor's but the format; `encodedFrame_eq` is where
the two meet.
-/

namespace SentryCell

open Foreground Word Machine

def protocolSof : Byte := 0xA5#8
def protocolVersion : Byte := 0x01#8
def protocolMaxPayload : Byte := 8#8

/-- `protocol_frame_t`. -/
structure ProtocolFrame where
  type : Byte
  sequence : Byte
  length : Byte
  payload : ℕ → Byte

/-- The payload bytes in use. -/
def ProtocolFrame.data (frame : ProtocolFrame) : List Byte :=
  (List.range frame.length.toNat).map frame.payload

/-- `protocol_compute_crc`. -/
def protocolComputeCrc (frame : ProtocolFrame) : Byte :=
  if frame.length > protocolMaxPayload then 0
  else crc8Compute
    ([protocolVersion, frame.type, frame.sequence, frame.length] ++ frame.data)

/-- The bytes `protocol_send_frame` assembles. -/
def encodedFrame (frame : ProtocolFrame) : List Byte :=
  [protocolSof, protocolVersion, frame.type, frame.sequence, frame.length] ++ frame.data ++
    [protocolComputeCrc frame]

theorem length_data (frame : ProtocolFrame) : frame.data.length = frame.length.toNat := by
  simp [ProtocolFrame.data]

theorem length_gt_maxPayload {length : Byte} :
    length > protocolMaxPayload ↔ 8 < length.toNat := Iff.rfl

/-- A frame takes six bytes on the line besides its payload. -/
theorem length_encodedFrame (frame : ProtocolFrame) :
    (encodedFrame frame).length = 6 + frame.length.toNat := by
  simp only [encodedFrame, List.length_append, List.length_cons, List.length_nil, length_data]
  omega

/-- The call of `uart_tx_write` a frame is sent by. -/
def frameTxArgs (frame : ProtocolFrame) (h : ¬ frame.length > protocolMaxPayload) : TxArgs where
  data := some (encodedFrame frame)
  length := 6 + frame.length
  readable := by
    rintro _ ⟨⟩
    have hl : frame.length.toNat ≤ 8 := Nat.le_of_not_lt (mt length_gt_maxPayload.mpr h)
    rw [length_encodedFrame, BitVec.toNat_add]
    show 6 + frame.length.toNat = (6 + frame.length.toNat) % 256
    omega

/-- `protocol_send_frame`. The frame is the caller's own, so that it is
encoded before the first access. -/
def protocolSendFrame (frame : ProtocolFrame) : Prog UartTx Byte :=
  if h : frame.length > protocolMaxPayload then pure 0 else uartTxWrite (frameTxArgs frame h)

/-! ## The two encoders -/

/-- The frame as the supervisor has it. -/
def ProtocolFrame.toHost (frame : ProtocolFrame) : Host.Frame where
  frameType := frame.type.toNat
  sequence := frame.sequence.toNat
  payload := frame.data

variable {frame : ProtocolFrame}

theorem ofNat_length_data : BitVec.ofNat 8 frame.data.length = frame.length := by
  rw [length_data]
  simp

/-- **The firmware's checksum covers what the supervisor's does.** -/
theorem protocolComputeCrc_eq (h : frame.length.toNat ≤ 8) :
    protocolComputeCrc frame =
      crc8Compute (Host.frameBody frame.type frame.sequence frame.data) := by
  rw [protocolComputeCrc, if_neg (mt length_gt_maxPayload.mp (Nat.not_lt.mpr h))]
  rw [Host.frameBody, ofNat_length_data]
  rfl

/-- **The firmware's encoder puts the frame on the wire.** -/
theorem encodedFrame_eq (h : frame.length.toNat ≤ 8) :
    encodedFrame frame = Host.frameBytes frame.type frame.sequence frame.data := by
  rw [encodedFrame, protocolComputeCrc_eq h, Host.frameBytes, Host.frameBody, ofNat_length_data]
  rfl

/-- **The host would write the same bytes** for a frame that the firmware
can send. -/
theorem encodeFrame_toHost (h : frame.length.toNat ≤ 8) :
    Host.encodeFrame frame.toHost = .ok (encodedFrame frame) := by
  rw [encodedFrame_eq h]
  exact Host.encodeFrame_octets (by rw [length_data]; exact h)

/-- **Sending a frame that fits is one call of `uart_tx_write`**, with the
encoded frame in its array. -/
theorem protocolSendFrame_of_le (h : frame.length.toNat ≤ 8) :
    ∃ a : TxArgs, protocolSendFrame frame = uartTxWrite a ∧ a.data = some (encodedFrame frame) ∧
      a.bytes = encodedFrame frame ∧ a.length.toNat = 6 + frame.length.toNat ∧ a.length ≠ 0 := by
  have hle : ¬ frame.length > protocolMaxPayload :=
    mt length_gt_maxPayload.mp (Nat.not_lt.mpr h)
  have hlen := (frameTxArgs frame hle).readable _ rfl
  rw [length_encodedFrame] at hlen
  refine ⟨frameTxArgs frame hle, by rw [protocolSendFrame, dif_neg hle], rfl, rfl, hlen.symm, ?_⟩
  intro h0
  rw [h0] at hlen
  have : (0 : Byte).toNat = 0 := rfl
  omega

/-- A frame out of range is not sent, and one in range has at most
fourteen bytes. -/
theorem endsWithin_protocolSendFrame (frame : ProtocolFrame) :
    EndsWithin 19 (protocolSendFrame frame) := by
  by_cases h : frame.length.toNat ≤ 8
  · obtain ⟨a, hsend, -, hbytes, -, -⟩ := protocolSendFrame_of_le h
    have hends := endsWithin_uartTxWrite a
    rw [hbytes, length_encodedFrame] at hends
    rw [hsend]
    exact hends.mono (by omega)
  · have hgt : frame.length > protocolMaxPayload := length_gt_maxPayload.mpr (Nat.lt_of_not_le h)
    rw [protocolSendFrame, dif_pos hgt]
    trivial

/-! ## Sending -/

/-- A call among `USART_UDRE` interrupts. -/
def txContract : Contract UartTx where
  rely u u' := u' = u ∨ u' = usartUdreVect u
  guar _ _ := True
  inv _ := True

/-- A call that nothing interrupts. -/
def txAlone : Contract UartTx where
  rely u u' := u' = u
  guar _ _ := True
  inv _ := True

/-- What the interrupt cannot undo: everything sent or queued is `sent`,
and at most `k` bytes are queued. -/
def TxHolds (sent : List Byte) (k : ℕ) (u : UartTx) : Prop :=
  u.TxIndexed ∧ u.txStream = sent ∧ u.txQueue.length ≤ k

/-- The transmit handler takes bytes away, and so leaves as much room at
least. -/
theorem stable_txHolds {sent : List Byte} {k : ℕ} : Stable txContract (TxHolds sent k) := by
  rintro u u' ⟨hu, hs, hk⟩ (rfl | rfl)
  · exact ⟨hu, hs, hk⟩
  · exact ⟨txIndexed_usartUdreVect hu, (txStream_usartUdreVect hu).trans hs,
      Nat.le_trans (txQueue_length_usartUdreVect_le hu) hk⟩

/-- **A call on a transmitter among its interrupts** enqueues its bytes
and returns `1`, or finds no room for them, enqueues nothing and returns
`0`. -/
theorem uartTxWrite_holds {τ : Type} (L : Lens τ UartTx) {C : Contract τ}
    (hrely : ∀ t t', C.rely t t' → L.get t' = L.get t ∨ L.get t' = usartUdreVect (L.get t))
    (hguar : ∀ t t', C.guar t t') (hinv : ∀ t, C.inv t) (a : TxArgs) (sent : List Byte) (k : ℕ)
    (hl : a.length ≠ 0) (hd : a.data ≠ none) :
    Triple C (fun t => TxHolds sent k (L.get t)) ((uartTxWrite a).zoom L) fun r t =>
      (r = 0 ∧ TxHolds sent k (L.get t) ∧ uartTxBufferSize ≤ k + a.length.toNat) ∨
      (r = 1 ∧ TxHolds (sent ++ a.bytes) 63 (L.get t)) := by
  have hstable : ∀ sent k, Stable C fun t => TxHolds sent k (L.get t) := fun sent k t t' ht hr =>
    stable_txHolds _ _ ht (hrely t t' hr)
  refine (uartTxWrite_triple L a (fun t ht => ht.1) hrely (hstable sent k)
    (hstable (sent ++ a.bytes) 63) (fun t _ => hinv t) (fun t _ => hinv t) (fun t => hguar t t)
    ?_ ?_ ?_).conseq (fun _ ht => ht) ?_
  · rintro t i b ⟨hu, hs, hk⟩ hi
    have hq := txQueue_update (b := b) hi
    refine ⟨hguar _ _, ?_⟩
    rw [Lens.get_set]
    refine ⟨hu, ?_, ?_⟩
    · exact (congrArg ((L.get t).udr0 ++ ·) hq).trans hs
    · exact Nat.le_trans (Nat.le_of_eq (congrArg List.length hq)) hk
  · rintro t head ⟨hu, hs, hk⟩ hlt hq
    have hu' : UartTx.TxIndexed { L.get t with txHead := head } := ⟨hlt, hu.2⟩
    refine ⟨hguar _ _, ?_⟩
    rw [Lens.get_set]
    refine ⟨hu', ?_, Nat.le_of_lt_succ (txQueue_length_lt hu')⟩
    refine (congrArg ((L.get t).udr0 ++ ·) hq).trans ?_
    rw [← hs, UartTx.txStream, List.append_assoc]
  · rintro t r ⟨hu, hs, hk⟩ - -
    refine ⟨hguar _ _, ?_⟩
    rw [Lens.get_set]
    exact ⟨hu, hs, hk⟩
  · rintro r t (⟨rfl, ht, hnone | hfull⟩ | ⟨rfl, ⟨h0, -⟩ | ⟨-, ht⟩⟩)
    · exact absurd hnone hd
    · exact .inl ⟨rfl, ht, Nat.le_trans hfull (Nat.add_le_add_right ht.2.2 _)⟩
    · exact absurd h0 hl
    · exact .inr ⟨rfl, ht⟩

/-- The call on the transmitter alone. -/
theorem triple_uartTxWrite (a : TxArgs) (sent : List Byte) (k : ℕ) (hl : a.length ≠ 0)
    (hd : a.data ≠ none) :
    Triple txContract (TxHolds sent k) (uartTxWrite a) fun r u =>
      (r = 0 ∧ u.txStream = sent ∧ uartTxBufferSize ≤ k + a.length.toNat) ∨
      (r = 1 ∧ u.txStream = sent ++ a.bytes) := by
  have h := uartTxWrite_holds (Lens.id UartTx) (C := txContract) (fun _ _ hr => hr)
    (fun _ _ => trivial) (fun _ => trivial) a sent k hl hd
  rw [Prog.zoom_id] at h
  refine h.conseq (fun _ hu => hu) ?_
  rintro r u (⟨rfl, hu, hfull⟩ | ⟨rfl, hu⟩)
  · exact .inl ⟨rfl, hu.2.1, hfull⟩
  · exact .inr ⟨rfl, hu.2.1⟩

/-- **A call that finds no room and is not interrupted** returns `0` and
changes nothing. -/
theorem triple_uartTxWrite_full (a : TxArgs) {u₀ : UartTx} (hu : u₀.TxIndexed)
    (hl : a.length ≠ 0) (hfull : uartTxBufferSize ≤ u₀.txQueue.length + a.length.toNat) :
    Triple txAlone (fun u => u = u₀) (uartTxWrite a) fun r u => r = 0 ∧ u = u₀ := by
  obtain ⟨h0, -⟩ | ⟨-, -, hp⟩ | hread := uartTxWrite_cases a
  · exact absurd h0 hl
  · rw [hp]
    exact Triple.ret fun u hu => ⟨rfl, hu⟩
  · intro u hu₀
    refine Safe.of_stages (R := fun p u =>
      u = u₀ ∧ (TxReading a u p ∨ p = .ret 0)) ?_ ?_ ?_ ?_ ⟨hu₀, .inl (hread u)⟩
    · rintro r v ⟨rfl, hr | hr⟩
      · exact absurd hr.result (by simp [Prog.result])
      · cases hr
        exact ⟨rfl, rfl⟩
    · exact fun _ _ _ _ => trivial
    · rintro p v _ - hR rfl
      exact hR
    · rintro p v p' v' ⟨rfl, hr | rfl⟩ hn
      · obtain ⟨rfl, hr' | hf | ⟨-, hp'⟩⟩ := hr.next hu hn
        · exact ⟨trivial, rfl, .inl hr'⟩
        · -- the room that a filling call was granted is not there
          obtain @⟨done, rest, head, -, hd, -, hroom⟩ := hf
          have hlen := a.readable _ hd
          rw [List.length_append] at hlen
          omega
        · exact ⟨trivial, rfl, .inr hp'⟩
      · cases hn

/-- **Sending a frame**, for a frame whose length is in range: among
interrupts it enqueues `data` and returns `1` or enqueues nothing and
returns `0`; with room it does the former, and with no room and no
interrupt it changes nothing. -/
structure Sends (frame : ProtocolFrame) (data : List Byte) : Prop where
  ends : EndsWithin (data.length + 5) (protocolSendFrame frame)
  allOrNothing : ∀ sent, Triple txContract (fun u => u.TxIndexed ∧ u.txStream = sent)
    (protocolSendFrame frame) fun r u =>
      (r = 1 ∧ u.txStream = sent ++ data) ∨ (r = 0 ∧ u.txStream = sent)
  room : ∀ sent, Triple txContract
    (fun u => u.TxIndexed ∧ u.txStream = sent ∧ u.txQueue.length + data.length ≤ 63)
    (protocolSendFrame frame) fun r u => r = 1 ∧ u.txStream = sent ++ data
  noRoom : ∀ u₀ : UartTx, u₀.TxIndexed → 63 < u₀.txQueue.length + data.length →
    Triple txAlone (fun u => u = u₀) (protocolSendFrame frame) fun r u => r = 0 ∧ u = u₀

/-- **A frame in range is sent as its encoding.** -/
theorem sends_encodedFrame (h : frame.length.toNat ≤ 8) : Sends frame (encodedFrame frame) := by
  obtain ⟨a, hsend, hd, hbytes, hlen, hl⟩ := protocolSendFrame_of_le h
  have hdata : a.data ≠ none := by
    rw [hd]
    exact Option.some_ne_none _
  have hsize : (encodedFrame frame).length = a.length.toNat := by
    rw [length_encodedFrame, hlen]
  rw [← hbytes] at hsize ⊢
  refine ⟨?_, fun sent => ?_, fun sent => ?_, fun u₀ hu hfull => ?_⟩
  · rw [hsend]
    exact endsWithin_uartTxWrite a
  · rw [hsend]
    refine (triple_uartTxWrite a sent 63 hl hdata).conseq ?_ ?_
    · rintro u ⟨hu, hs⟩
      exact ⟨hu, hs, Nat.le_of_lt_succ (txQueue_length_lt hu)⟩
    · rintro r u (⟨rfl, hs, -⟩ | ⟨rfl, hs⟩)
      · exact .inr ⟨rfl, hs⟩
      · exact .inl ⟨rfl, hs⟩
  · rw [hsend]
    refine (triple_uartTxWrite a sent (63 - a.bytes.length) hl hdata).conseq ?_ ?_
    · rintro u ⟨hu, hs, hk⟩
      exact ⟨hu, hs, by omega⟩
    · rintro r u (⟨rfl, hs, hfull⟩ | h)
      · unfold uartTxBufferSize at hfull
        omega
      · exact h
  · rw [hsend]
    exact triple_uartTxWrite_full a hu hl (by rw [← hsize]; exact hfull)

/-- **The frame format round-trips and the two encoders agree.** What
`encode_frame` makes of a frame of octets `decode_frame` turns back into
the frame, and the other way about; any other frame raises; and
`protocol_send_frame` enqueues what `encode_frame` produces, all of it or
nothing. -/
theorem frame_format :
    (∀ f : Host.Frame, f.Encodable →
      ∃ data, Host.encodeFrame f = .ok data ∧ Host.decodeFrame data = .ok f) ∧
    (∀ data f, Host.decodeFrame data = .ok f → Host.encodeFrame f = .ok data) ∧
    (∀ f : Host.Frame, ¬ f.Encodable →
      ∃ message, Host.encodeFrame f = .error (.protocolError message)) ∧
    (∀ frame : ProtocolFrame, frame.length.toNat ≤ 8 →
      ∃ data, Host.encodeFrame frame.toHost = .ok data ∧ Sends frame data) ∧
    (∀ frame : ProtocolFrame, 8 < frame.length.toNat → protocolSendFrame frame = .ret 0) := by
  refine ⟨fun f => Host.decodeFrame_encodeFrame, fun data f => Host.encodeFrame_decodeFrame,
    fun f => Host.encodeFrame_error, fun frame h => ?_, fun frame h => ?_⟩
  · exact ⟨encodedFrame frame, encodeFrame_toHost h, sends_encodedFrame h⟩
  · rw [protocolSendFrame, dif_pos (length_gt_maxPayload.mpr h)]
    rfl

end SentryCell
