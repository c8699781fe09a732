import SentryCell.Firmware.PassLength
import SentryCell.Host.Telemetry
/-!
# Telemetry, from the firmware's values to the supervisor's

The eight senders pack their arguments into payload bytes, and the eight
decoders read fields back from slices of them. `MeansSame` says of a
sender, a decoder and a value what it takes for a message to mean the same
on both sides; `telemetry_means_same` that all eight messages do.
-/

namespace SentryCell

open Foreground Word Machine

/-! ## What a sender enqueues -/

/-- A program of the firmware among all its interrupts. -/
def interrupted : Contract Firmware where
  rely s s' := ∃ x : Interrupt, x.handler s = some s'
  guar _ _ := True
  inv _ := True

/-- **A sender of `data`**: it returns within one access for each byte and
six more; whatever was sent or queued before, it enqueues `data` whole and
returns `1`, or nothing and returns `0`; and with room for `data` it does
the former. -/
structure Sender (p : Prog Firmware Byte) (data : List Byte) : Prop where
  ends : EndsWithin (data.length + 6) p
  allOrNothing : ∀ sent, Triple interrupted
    (fun s => s.uart.tx.TxIndexed ∧ s.uart.tx.txStream = sent) p fun r s =>
      (r = 1 ∧ s.uart.tx.txStream = sent ++ data) ∨ (r = 0 ∧ s.uart.tx.txStream = sent)
  room : ∀ sent, Triple interrupted
    (fun s => s.uart.tx.TxIndexed ∧ s.uart.tx.txStream = sent ∧
      s.uart.tx.txQueue.length + data.length ≤ 63) p fun r s =>
      r = 1 ∧ s.uart.tx.txStream = sent ++ data

variable {kind : StatusKind} {sequence : Byte} {payload : List Byte}

theorem stable_interrupted {sent : List Byte} {k : ℕ} :
    Stable interrupted fun s => TxHolds sent k s.uart.tx := by
  rintro s s' hs ⟨x, hx⟩
  exact stable_txHolds _ _ hs (tx_of_handler hx)

/-- The flag is cleared once the frame is enqueued, and the transmitter is
not touched. -/
theorem protocolSendStatus_triple (hlen : payload.length = kind.payloadLength)
    (sent : List Byte) (k : ℕ) :
    Triple interrupted (fun s => TxHolds sent k s.uart.tx)
      (protocolSendStatus kind sequence payload) fun r s =>
        (r = 0 ∧ s.uart.tx.txStream = sent ∧
          64 ≤ k + (encodedFrame (statusFrame kind sequence payload)).length) ∨
        (r = 1 ∧ s.uart.tx.txStream =
          sent ++ encodedFrame (statusFrame kind sequence payload)) := by
  have h8 : (statusFrame kind sequence payload).length.toNat ≤ 8 := by
    rw [length_statusFrame hlen]
    exact kind.payloadLength_le
  obtain ⟨a, hsend, hdata, hbytes, hsize, hne⟩ := protocolSendFrame_of_le h8
  have hsome : a.data ≠ none := by
    rw [hdata]
    exact Option.some_ne_none _
  have hcall := uartTxWrite_holds Firmware.txLens (C := interrupted)
    (fun s s' hr => hr.elim fun x hx => tx_of_handler hx) (fun _ _ => trivial)
    (fun _ => trivial) a sent k hne hsome
  simp only [protocolSendStatus, Prog.bind_eq, hsend]
  refine Triple.bind hcall fun r => ?_
  by_cases hr : r = 0
  · rw [if_pos hr]
    refine Triple.ret ?_
    rintro s (⟨-, hs, hfull⟩ | ⟨h1, -⟩)
    · rw [length_encodedFrame, ← hsize]
      exact .inl ⟨rfl, hs.2.1, hfull⟩
    · rw [h1] at hr
      cases hr
  · rw [if_neg hr, Prog.zoom_write]
    refine Triple.write_bind
      (B := fun s => TxHolds (sent ++ encodedFrame (statusFrame kind sequence payload)) 63 s.uart.tx)
      ?_ (fun _ _ => trivial) ?_ (Triple.ret fun s hs => .inr ⟨rfl, hs.2.1⟩)
    · rintro s s' (⟨h0, -⟩ | ⟨h1, hs⟩) hrely
      · exact absurd h0 hr
      · exact .inr ⟨h1, stable_interrupted s s' hs hrely⟩
    · rintro s (⟨h0, -⟩ | ⟨-, hs⟩)
      · exact absurd h0 hr
      · rw [hbytes] at hs
        exact ⟨trivial, hs⟩

/-- **A status is sent as the encoding of its frame.** -/
theorem sender_protocolSendStatus (hlen : payload.length = kind.payloadLength) :
    Sender (protocolSendStatus kind sequence payload)
      (encodedFrame (statusFrame kind sequence payload)) := by
  have h8 : (statusFrame kind sequence payload).length.toNat ≤ 8 := by
    rw [length_statusFrame hlen]
    exact kind.payloadLength_le
  refine ⟨?_, ?_, ?_⟩
  · exact endsWithin_protocolSendStatus (sends_encodedFrame h8).ends
  · intro sent
    refine (protocolSendStatus_triple hlen sent 63).conseq ?_ ?_
    · rintro s ⟨hu, hs⟩
      exact ⟨hu, hs, Nat.le_of_lt_succ (txQueue_length_lt hu)⟩
    · rintro r s (⟨h0, hs, -⟩ | hs)
      · exact .inr ⟨h0, hs⟩
      · exact .inl hs
  · intro sent
    let size := (encodedFrame (statusFrame kind sequence payload)).length
    refine (protocolSendStatus_triple hlen sent (63 - size)).conseq ?_ ?_
    · rintro s ⟨hu, hs, hroom⟩
      exact ⟨hu, hs, by omega⟩
    · rintro r s (⟨-, -, hfull⟩ | hs)
      · have hle := kind.payloadLength_le
        have hframe : (statusFrame kind sequence payload).length.toNat = kind.payloadLength :=
          length_statusFrame hlen
        have hsize : size = 6 + kind.payloadLength := by
          rw [← hframe, ← length_encodedFrame]
        omega
      · exact hs

/-! ## What the decoders make of it -/

/-- The decoder of a status rejects the frame. -/
def StatusRejected (frame : Host.Frame) : StatusKind → Prop
  | .commStatus => ∃ message, Host.decodeCommStatus frame = .error (.protocolError message)
  | .timingStatus => ∃ message, Host.decodeTimingStatus frame = .error (.protocolError message)
  | .jitterStatus => ∃ message, Host.decodeJitterStatus frame = .error (.protocolError message)
  | .runtimeMemoryStatus =>
    ∃ message, Host.decodeRuntimeMemoryStatus frame = .error (.protocolError message)
  | .cpuLoadStatus => ∃ message, Host.decodeCpuLoadStatus frame = .error (.protocolError message)
  | .overrunStatus => ∃ message, Host.decodeOverrunStatus frame = .error (.protocolError message)
  | .resetCause => ∃ message, Host.decodeResetCause frame = .error (.protocolError message)
  | .watchdogStatus => ∃ message, Host.decodeWatchdogStatus frame = .error (.protocolError message)

/-- **A message that means the same on both sides**: what `send` enqueues
is a frame, `decode` reads `value` from it, and the decoders of the other
seven statuses reject it. -/
def MeansSame {α : Type} (send : Prog Firmware Byte) (kind : StatusKind) (sequence : Byte)
    (decode : Host.Frame → Except Host.PyError α) (value : α) : Prop :=
  ∃ data frame, Sender send data ∧ Host.decodeFrame data = .ok frame ∧
    frame.sequence = sequence.toNat ∧ decode frame = .ok value ∧
    ∀ other, other ≠ kind → StatusRejected frame other

/-- The frame of a status, as the supervisor has it. -/
def hostStatus (kind : StatusKind) (sequence : Byte) (payload : List Byte) : Host.Frame :=
  ⟨kind.type.toNat, sequence.toNat, payload⟩

theorem decodeFrame_statusFrame (hlen : payload.length = kind.payloadLength) :
    Host.decodeFrame (encodedFrame (statusFrame kind sequence payload)) =
      .ok (hostStatus kind sequence payload) := by
  have h8 : payload.length ≤ 8 := by
    rw [hlen]
    exact kind.payloadLength_le
  have hframe : (statusFrame kind sequence payload).length.toNat ≤ 8 := by
    rw [length_statusFrame hlen]
    exact kind.payloadLength_le
  rw [encodedFrame_eq hframe, data_statusFrame h8]
  exact Host.decodeFrame_eq_ok_iff.mpr ⟨kind.type, sequence, payload, h8, rfl, rfl⟩

/-- The eight statuses have different types, so that the type tells which
decoder reads them. -/
theorem StatusKind.type_injective {kind other : StatusKind} (h : kind.type = other.type) :
    kind = other := by
  rcases kind <;> rcases other <;> first | rfl | exact absurd h (by decide)

/-- **The other decoders reject a status by its type.** -/
theorem statusRejected_of_ne {other : StatusKind} (h : other ≠ kind) :
    StatusRejected (hostStatus kind sequence payload) other := by
  have hne : ∀ type : ℕ, type = other.type.toNat →
      (hostStatus kind sequence payload).frameType ≠ type := by
    rintro type rfl htype
    have hnat : kind.type.toNat = other.type.toNat := Int.ofNat.inj htype
    exact h (StatusKind.type_injective (BitVec.eq_of_toNat_eq hnat)).symm
  -- each decoder looks at the type before anything else
  rcases other with _ | _ | _ | _ | _ | _ | _ | _
  · exact Host.decode_error (hne Host.typeCommStatus rfl) _
  · exact Host.decode_error (hne Host.typeTimingStatus rfl) _
  · exact Host.decode_error (hne Host.typeJitterStatus rfl) _
  · exact Host.decode_error (hne Host.typeRuntimeMemoryStatus rfl) _
  · exact Host.decode_error (hne Host.typeCpuLoadStatus rfl) _
  · exact Host.decode_error (hne Host.typeOverrunStatus rfl) _
  · exact Host.decode_error (hne Host.typeResetCause rfl) _
  · exact Host.decode_error (hne Host.typeWatchdogStatus rfl) _

/-- A sender and a decoder agree where the decoder reads the value from
the payload. -/
theorem meansSame {α : Type} {decode : Host.Frame → Except Host.PyError α} {value : α}
    (hlen : payload.length = kind.payloadLength)
    (hdecode : decode (hostStatus kind sequence payload) = .ok value) :
    MeansSame (protocolSendStatus kind sequence payload) kind sequence decode value :=
  ⟨_, _, sender_protocolSendStatus hlen, decodeFrame_statusFrame hlen, rfl, hdecode,
    fun _ => statusRejected_of_ne⟩

/-! ## Little-endian fields -/

/-- **The supervisor reads back a 16-bit value.** -/
theorem fromBytesLittle_word16Bytes (v : Word16) :
    Host.fromBytesLittle (word16Bytes v) = v.toNat := by
  have hlt := v.isLt
  simp only [word16Bytes, Host.fromBytesLittle, BitVec.toNat_setWidth, BitVec.toNat_ushiftRight,
    Nat.shiftRight_eq_div_pow]
  omega

/-- A 32-bit value is read back from its four bytes, the lowest first. -/
theorem fromBytesLittle_word32Bytes (v : Word32) :
    Host.fromBytesLittle (word32Bytes v) = v.toNat := by
  have hlt := v.isLt
  simp only [word32Bytes, Host.fromBytesLittle, BitVec.toNat_setWidth, BitVec.toNat_ushiftRight,
    Nat.shiftRight_eq_div_pow]
  omega

/-- The supervisor reads back the two values of a CPU_LOAD_STATUS. -/
theorem decodeCpuLoadStatus_hostStatus (busyTicks elapsedMs : Word32) :
    Host.decodeCpuLoadStatus (hostStatus .cpuLoadStatus sequence
      (word32Bytes busyTicks ++ word32Bytes elapsedMs)) =
        .ok { busyTicks := busyTicks.toNat, elapsedMs := elapsedMs.toNat } := by
  refine (Host.decode_ok rfl rfl _).trans ?_
  rw [← fromBytesLittle_word32Bytes busyTicks, ← fromBytesLittle_word32Bytes elapsedMs]
  rfl

/-- A payload of four words is read back word by word. -/
theorem slices_taskWords (a b c d : Word16) :
    Host.fromBytesLittle (Host.slice (taskWords a b c d) 0 2) = a.toNat ∧
      Host.fromBytesLittle (Host.slice (taskWords a b c d) 2 4) = b.toNat ∧
      Host.fromBytesLittle (Host.slice (taskWords a b c d) 4 6) = c.toNat ∧
      Host.fromBytesLittle (Host.slice (taskWords a b c d) 6 8) = d.toNat :=
  ⟨fromBytesLittle_word16Bytes a, fromBytesLittle_word16Bytes b, fromBytesLittle_word16Bytes c,
    fromBytesLittle_word16Bytes d⟩

/-- **Every telemetry message means the same on both sides.** For each of
the eight senders, every sequence and all arguments: what it enqueues is a
frame of that sequence, from which the decoder of the status reads back
the arguments, in the fields of their names, and which the decoders of the
other seven reject. The watchdog's marker is 1 for any non-zero argument. -/
theorem telemetry_means_same (sequence : Byte) :
    (∀ uartOverflow timeoutCount crcErrorCount : Byte,
      MeansSame (protocolSendCommStatus sequence uartOverflow timeoutCount crcErrorCount)
        .commStatus sequence Host.decodeCommStatus
        { uartRxOverflow := uartOverflow.toNat
          parserTimeouts := timeoutCount.toNat
          crcErrors := crcErrorCount.toNat }) ∧
    (∀ actuatorTicks controlTicks sensorSafetyTicks communicationTicks : Word16,
      MeansSame (protocolSendTimingStatus sequence actuatorTicks controlTicks sensorSafetyTicks
          communicationTicks) .timingStatus sequence Host.decodeTimingStatus
        { actuatorTicks := actuatorTicks.toNat
          controlTicks := controlTicks.toNat
          sensorSafetyTicks := sensorSafetyTicks.toNat
          communicationTicks := communicationTicks.toNat }) ∧
    (∀ actuatorMs controlMs sensorSafetyMs communicationMs : Word16,
      MeansSame (protocolSendJitterStatus sequence actuatorMs controlMs sensorSafetyMs
          communicationMs) .jitterStatus sequence Host.decodeJitterStatus
        { actuatorMs := actuatorMs.toNat
          controlMs := controlMs.toNat
          sensorSafetyMs := sensorSafetyMs.toNat
          communicationMs := communicationMs.toNat }) ∧
    (∀ minFreeBytes paintedBytes usedPaintedBytes : Word16,
      MeansSame (protocolSendRuntimeMemoryStatus sequence minFreeBytes paintedBytes
          usedPaintedBytes) .runtimeMemoryStatus sequence Host.decodeRuntimeMemoryStatus
        { minFreeBytes := minFreeBytes.toNat
          paintedBytes := paintedBytes.toNat
          usedPaintedBytes := usedPaintedBytes.toNat }) ∧
    (∀ busyTicks elapsedMs : Word32,
      MeansSame (protocolSendCpuLoadStatus sequence busyTicks elapsedMs) .cpuLoadStatus sequence
        Host.decodeCpuLoadStatus
        { busyTicks := busyTicks.toNat
          elapsedMs := elapsedMs.toNat }) ∧
    (∀ actuator control sensorSafety communication : Word16,
      MeansSame (protocolSendOverrunStatus sequence actuator control sensorSafety communication)
        .overrunStatus sequence Host.decodeOverrunStatus
        { actuator := actuator.toNat
          control := control.toNat
          sensorSafety := sensorSafety.toNat
          communication := communication.toNat }) ∧
    (∀ cause : Byte,
      MeansSame (protocolSendResetCause sequence cause) .resetCause sequence
        Host.decodeResetCause { resetCause := cause.toNat }) ∧
    (∀ timeoutDetected : Byte,
      MeansSame (protocolSendWatchdogStatus sequence timeoutDetected) .watchdogStatus sequence
        Host.decodeWatchdogStatus
        { timeoutMarker := if timeoutDetected ≠ 0 then 1 else 0 }) := by
  refine ⟨fun a b c => ?_, fun a b c d => ?_, fun a b c d => ?_, fun a b c => ?_, fun a b => ?_,
    fun a b c d => ?_, fun a => ?_, fun a => ?_⟩
  · refine meansSame rfl ?_
    exact Host.decode_ok rfl rfl _
  · obtain ⟨ha, hb, hc, hd⟩ := slices_taskWords a b c d
    refine meansSame rfl ((Host.decode_ok rfl rfl _).trans ?_)
    rw [← ha, ← hb, ← hc, ← hd]
    rfl
  · obtain ⟨ha, hb, hc, hd⟩ := slices_taskWords a b c d
    refine meansSame rfl ((Host.decode_ok rfl rfl _).trans ?_)
    rw [← ha, ← hb, ← hc, ← hd]
    rfl
  · refine meansSame rfl ((Host.decode_ok rfl rfl _).trans ?_)
    rw [← fromBytesLittle_word16Bytes a, ← fromBytesLittle_word16Bytes b,
      ← fromBytesLittle_word16Bytes c]
    rfl
  · exact meansSame rfl (decodeCpuLoadStatus_hostStatus a b)
  · obtain ⟨ha, hb, hc, hd⟩ := slices_taskWords a b c d
    refine meansSame rfl ((Host.decode_ok rfl rfl _).trans ?_)
    rw [← ha, ← hb, ← hc, ← hd]
    rfl
  · refine meansSame rfl ?_
    exact Host.decode_ok rfl rfl _
  · refine meansSame rfl ((Host.decode_ok rfl rfl _).trans ?_)
    by_cases h : a ≠ 0
    · rw [if_pos h, if_pos h]
      rfl
    · rw [if_neg h, if_neg h]
      rfl

end SentryCell
