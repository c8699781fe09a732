import SentryCell.Hal.UartRx
import SentryCell.Hal.UartTx
import SentryCell.Protocol.Buffers
/-!
# No byte stream leads out of a buffer

`hal/uart.c` with its two rings at their sizes, and the calls that the
firmware makes of it and of the protocol, on the statics of both. Calls
come in any order, and the two interrupts at any of their accesses.
`buffers_safe` says that none of these ever fails.
-/

namespace SentryCell

open Bounds Foreground Word

/-- The static variables of `protocol.c` and `uart.c`. -/
structure LinkStatics where
  protocol : ProtocolStatics
  uart : Uart

namespace LinkStatics

def mapSlots (f : Slots → Slots) (s : LinkStatics) : LinkStatics :=
  { s with protocol := { s.protocol with slots := f s.protocol.slots } }

def mapRx (f : UartRx → UartRx) (s : LinkStatics) : LinkStatics :=
  { s with uart := { s.uart with rx := f s.uart.rx } }

def mapTx (f : UartTx → UartTx) (s : LinkStatics) : LinkStatics :=
  { s with uart := { s.uart with tx := f s.uart.tx } }

end LinkStatics

namespace Checked

/-- A program on the statics. -/
abbrev Call := Prog (Guarded LinkStatics)

/-! ## The UART -/

/-- `USART_RX_vect`, on the byte read from `UDR0`. -/
def usartRxVect (byte : Byte) (s : LinkStatics) : Option LinkStatics :=
  let u := s.uart.rx
  let head := u.rxHead
  let nextHead := (head + 1) &&& uartRxBufferMask
  if nextHead ≠ u.rxTail then do
    let rxBuffer ← store uartRxBufferSize u.rxBuffer head.toNat byte
    some (s.mapRx fun u => { u with rxBuffer := rxBuffer, rxHead := nextHead })
  else if u.rxOverflowCount ≠ 255 then do
    let rxOverflowCount ← narrow (u.rxOverflowCount.toNat + 1)
    some (s.mapRx fun u => { u with rxOverflowCount := rxOverflowCount })
  else some s

/-- `USART_UDRE_vect`. -/
def usartUdreVect (s : LinkStatics) : Option LinkStatics :=
  let u := s.uart.tx
  let tail := u.txTail
  if u.txHead ≠ tail then do
    let byte ← load uartTxBufferSize u.txBuffer tail.toNat
    some (s.mapTx fun u =>
      { u with udr0 := u.udr0 ++ [byte], txTail := (tail + 1) &&& uartTxBufferMask })
  else some (s.mapTx fun u => { u with ucsr0b := u.ucsr0b &&& ~~~bit udrie0 })

/-- `uart_write_byte`. The wait before it reads a register only. -/
def uartWriteByte (byte : Byte) : Call Unit :=
  Guarded.write fun s => s.mapTx fun u => { u with udr0 := u.udr0 ++ [byte] }

/-- `uart_write_string`, on the characters before the end of the text. -/
def uartWriteString : List Byte → Call Unit
  | [] => pure ()
  | byte :: text => do
    uartWriteByte byte
    uartWriteString text

/-- The end of `uart_tx_write`: `tx_head` and `UCSR0B |= 1 << UDRIE0`. -/
def uartTxPublish (head : Byte) : Call Byte := do
  Guarded.write fun s => s.mapTx fun u => { u with txHead := head }
  let ucsr0b ← Guarded.read fun s => s.uart.tx.ucsr0b
  Guarded.write fun s => s.mapTx fun u => { u with ucsr0b := ucsr0b ||| bit udrie0 }
  pure 1

/-- The loop of `uart_tx_write`, with `left` bytes to come from `index` on. -/
def uartTxFill (size : ℕ) (data : ℕ → Option Byte) : ℕ → ℕ → Byte → Call Byte
  | 0, _, head => uartTxPublish head
  | left + 1, index, head => do
    Guarded.attempt () fun s => do
      let byte ← (load size data index).join
      let txBuffer ← store uartTxBufferSize s.uart.tx.txBuffer head.toNat byte
      some ((), s.mapTx fun u => { u with txBuffer := txBuffer })
    uartTxFill size data left (index + 1) ((head + 1) &&& uartTxBufferMask)

/-- `uart_tx_write`, on a pointer to an array of `size` bytes, `none` where
it is null. -/
def uartTxWrite (data : Option (ℕ × (ℕ → Option Byte))) (length : Byte) : Call Byte :=
  if length = 0 then pure 1
  else match data with
    | none => pure 0
    | some (size, data) => do
      let head ← Guarded.read fun s => s.uart.tx.txHead
      let tail ← Guarded.read fun s => s.uart.tx.txTail
      let used := (head - tail) &&& uartTxBufferMask
      let freeSpace ← Guarded.require 0
        (if used ≤ uartTxBufferMask then some (uartTxBufferMask - used) else none)
      if length > freeSpace then pure 0 else uartTxFill size data length.toNat 0 head

/-- `uart_read_byte`; the argument says whether the pointer is null. -/
def uartReadByte (null : Bool) : Call (Option Byte) :=
  if null then pure none
  else do
    let head ← Guarded.read fun s => s.uart.rx.rxHead
    let tail ← Guarded.read fun s => s.uart.rx.rxTail
    if head = tail then pure none
    else do
      let tail ← Guarded.read fun s => s.uart.rx.rxTail
      let byte ← Guarded.attempt 0 fun s =>
        (load uartRxBufferSize s.uart.rx.rxBuffer tail.toNat).map fun byte => (byte, s)
      Guarded.write fun s =>
        s.mapRx fun u => { u with rxTail := (tail + 1) &&& uartRxBufferMask }
      pure (some byte)

/-! ## The protocol -/

/-- `protocol_send_frame`. -/
def protocolSendFrame (frame : MemoryFrame) : Call Byte := do
  let encoded ← Guarded.require (fun _ => none, 0) (encodeFrame frame)
  uartTxWrite (some (maxFrameSize, encoded.1)) encoded.2

/-- What the task does with a response: `protocol_get_response`,
`protocol_send_frame` and `protocol_response_sent`. -/
def serveResponse : Call Unit := do
  let response ← Guarded.attempt none fun s =>
    if s.protocol.slots.responsePending = 0 then some (none, s)
    else (protocolGetResponse s.protocol.slots).map fun response => (some response, s)
  match response with
  | none => pure ()
  | some response => do
    let sent ← protocolSendFrame response
    if sent ≠ 0 then Guarded.write (LinkStatics.mapSlots protocolResponseSent) else pure ()

/-- The `protocol_send_…` functions of the eight statuses. -/
def protocolSendStatus (kind : StatusKind) (sequence : Byte) (payload : List Byte) :
    Call Unit := do
  let frame ← Guarded.require ⟨0, 0, 0, fun _ => none⟩ (statusFrame kind sequence payload)
  let sent ← protocolSendFrame frame
  if sent = 0 then pure () else Guarded.write (LinkStatics.mapSlots (clearRequest kind))

end Checked

/-- The arguments of the `protocol_send_…` functions, behind the sequence. -/
inductive StatusArgs where
  | commStatus (uartOverflow timeoutCount crcErrorCount : Byte)
  | timingStatus (actuator control sensorSafety communication : Word16)
  | jitterStatus (actuator control sensorSafety communication : Word16)
  | runtimeMemoryStatus (minFreeBytes paintedBytes usedPaintedBytes : Word16)
  | cpuLoadStatus (busyTicks elapsedMs : Word32)
  | overrunStatus (actuator control sensorSafety communication : Word16)
  | resetCause (cause : Byte)
  | watchdogStatus (timeoutDetected : Byte)

namespace StatusArgs

def kind : StatusArgs → StatusKind
  | commStatus .. => .commStatus
  | timingStatus .. => .timingStatus
  | jitterStatus .. => .jitterStatus
  | runtimeMemoryStatus .. => .runtimeMemoryStatus
  | cpuLoadStatus .. => .cpuLoadStatus
  | overrunStatus .. => .overrunStatus
  | resetCause .. => .resetCause
  | watchdogStatus .. => .watchdogStatus

/-- The bytes that are assigned to the payload. -/
def payload : StatusArgs → List Byte
  | commStatus uartOverflow timeoutCount crcErrorCount =>
    [uartOverflow, timeoutCount, crcErrorCount]
  | timingStatus actuator control sensorSafety communication =>
    taskWords actuator control sensorSafety communication
  | jitterStatus actuator control sensorSafety communication =>
    taskWords actuator control sensorSafety communication
  | runtimeMemoryStatus minFreeBytes paintedBytes usedPaintedBytes =>
    word16Bytes minFreeBytes ++ word16Bytes paintedBytes ++ word16Bytes usedPaintedBytes
  | cpuLoadStatus busyTicks elapsedMs => word32Bytes busyTicks ++ word32Bytes elapsedMs
  | overrunStatus actuator control sensorSafety communication =>
    taskWords actuator control sensorSafety communication
  | resetCause cause => [cause]
  | watchdogStatus timeoutDetected => [if timeoutDetected ≠ 0 then 1 else 0]

/-- The payload that a sender packs has the length that its kind of status
names. -/
theorem length_payload (a : StatusArgs) : a.payload.length = a.kind.payloadLength := by
  cases a <;> rfl

end StatusArgs

/-- **The operations.** -/
inductive LinkCall where
  | protocolProcessByte (byte : Byte) (nowMs : Word32)
  | protocolCheckTimeout (nowMs : Word32)
  | serveResponse
  | protocolSendStatus (sequence : Byte) (a : StatusArgs)
  | uartTxWrite (a : TxArgs)
  | uartReadByte (null : Bool)
  | uartWriteByte (byte : Byte)
  | uartWriteString (text : List Byte)

/-- The interrupts. -/
inductive LinkInterrupt where
  | usartRx (byte : Byte)
  | usartUdre

/-- What an operation does. -/
def LinkCall.task : LinkCall → Checked.Call Unit
  | .protocolProcessByte byte nowMs =>
    Guarded.attempt () fun s =>
      (Checked.protocolProcessByte byte nowMs s.protocol).map fun p => ((), { s with protocol := p })
  | .protocolCheckTimeout nowMs =>
    Guarded.write fun s => { s with protocol := Checked.protocolCheckTimeout nowMs s.protocol }
  | .serveResponse => Checked.serveResponse
  | .protocolSendStatus sequence a => Checked.protocolSendStatus a.kind sequence a.payload
  | .uartTxWrite a =>
    (Checked.uartTxWrite (a.data.map fun d => (d.length, fun i => d[i]?)) a.length).bind
      fun _ => .ret ()
  | .uartReadByte null => (Checked.uartReadByte null).bind fun _ => .ret ()
  | .uartWriteByte byte => Checked.uartWriteByte byte
  | .uartWriteString text => Checked.uartWriteString text

/-- What an interrupt does. -/
def LinkInterrupt.handler : LinkInterrupt → LinkStatics → Option LinkStatics
  | .usartRx byte => Checked.usartRxVect byte
  | .usartUdre => Checked.usartUdreVect

/-- **The calls, in any order, among their interrupts.** -/
def linkMachine : Machine (Guarded LinkStatics) LinkCall Unit LinkInterrupt where
  task := LinkCall.task
  ready _ _ := true
  env x g := some (Guarded.handle x.handler g)

/-- The statics after `protocol_init` and `uart_init`. -/
def LinkStatics.init (p : Protocol) (u : Uart) : LinkStatics :=
  ⟨(protocolInit p).statics, uartInit u⟩

/-! ## What every access keeps -/

/-- **The parser and the indices are within the arrays.** -/
structure LinkStatics.Bounded (s : LinkStatics) : Prop where
  protocol : ∃ p : Protocol, s.protocol = p.statics ∧ p.Bounded
  rx : s.uart.rx.RxIndexed
  tx : s.uart.tx.TxIndexed

variable {s : LinkStatics} {d : List Byte} {m : MemoryFrame}

/-- After initialisation every index is zero, and so in bounds. -/
theorem LinkStatics.bounded_init (p : Protocol) (u : Uart) : (LinkStatics.init p u).Bounded where
  protocol := ⟨protocolInit p, rfl, bounded_protocolInit p⟩
  rx := ⟨Nat.zero_lt_succ 31, Nat.zero_lt_succ 31⟩
  tx := ⟨Nat.zero_lt_succ 63, Nat.zero_lt_succ 63⟩

/-- What leaves the transmitter's indices in bounds leaves all of them so. -/
theorem LinkStatics.Bounded.mapTx {f : UartTx → UartTx} (h : s.Bounded)
    (hf : (f s.uart.tx).TxIndexed) : (s.mapTx f).Bounded :=
  ⟨h.protocol, h.rx, hf⟩

/-- What leaves the receiver's indices in bounds leaves all of them so. -/
theorem LinkStatics.Bounded.mapRx {f : UartRx → UartRx} (h : s.Bounded)
    (hf : (f s.uart.rx).RxIndexed) : (s.mapRx f).Bounded :=
  ⟨h.protocol, hf, h.tx⟩

/-- A change of the slots that leaves the length of the response. -/
theorem LinkStatics.Bounded.mapSlots {f : Slots → Slots} (h : s.Bounded)
    (hf : ∀ slots, (f slots).pendingFrame = slots.pendingFrame) : (s.mapSlots f).Bounded := by
  obtain ⟨⟨p, hp, hbounded⟩, hrx, htx⟩ := h
  refine ⟨⟨{ p with slots := f p.slots }, ?_, ?_⟩, hrx, htx⟩
  · rw [LinkStatics.mapSlots, hp]
    rfl
  · refine ⟨hbounded.readPayload, hbounded.readCrc, ?_⟩
    rw [hf]
    exact hbounded.pending

/-- A masked index is in range. -/
theorem toNat_rxMask_lt (i : Byte) : (i &&& uartRxBufferMask).toNat < uartRxBufferSize := by
  have hmask : (i &&& uartRxBufferMask).toNat = i.toNat % 2 ^ 5 := toNat_and_mask i 5 (by omega)
  rw [hmask]
  exact Nat.mod_lt _ (by decide)

/-- An index that is masked is within the buffer, for its size is a power
of two. -/
theorem toNat_txMask_lt (i : Byte) : (i &&& uartTxBufferMask).toNat < uartTxBufferSize := by
  have hmask : (i &&& uartTxBufferMask).toNat = i.toNat % 2 ^ 6 := toNat_and_mask i 6 (by omega)
  rw [hmask]
  exact Nat.mod_lt _ (by decide)

/-! ## The interrupts -/

/-- From indices in bounds the guarded receive handler does what the plain one
does, and no check of it fails. -/
theorem checked_usartRxVect (byte : Byte) (h : s.Bounded) :
    Checked.usartRxVect byte s = some (s.mapRx (usartRxVect byte)) := by
  unfold Checked.usartRxVect
  simp only [LinkStatics.mapRx, usartRxVect]
  split
  · rw [store_eq h.rx.1]
    rfl
  · split
    · rename_i hcount
      have hlt := s.uart.rx.rxOverflowCount.isLt
      have hne : s.uart.rx.rxOverflowCount.toNat ≠ 255 :=
        fun heq => hcount (BitVec.eq_of_toNat_eq heq)
      rw [narrow_eq (by omega), BitVec.ofNat_add, BitVec.ofNat_toNat, BitVec.setWidth_eq]
      rfl
    · rfl

/-- From indices in bounds the guarded transmit handler does what the plain
one does, and no check of it fails. -/
theorem checked_usartUdreVect (h : s.Bounded) :
    Checked.usartUdreVect s = some (s.mapTx usartUdreVect) := by
  unfold Checked.usartUdreVect
  simp only [LinkStatics.mapTx, usartUdreVect]
  split
  · rw [load_eq h.tx.2]
    rfl
  · rfl

/-- **An interrupt finds its index in range**, and leaves it so. -/
theorem LinkInterrupt.bounded_handler (x : LinkInterrupt) (h : s.Bounded) :
    ∃ s', x.handler s = some s' ∧ s'.Bounded := by
  cases x with
  | usartRx byte =>
    exact ⟨_, checked_usartRxVect byte h, h.mapRx (rxIndexed_usartRxVect h.rx)⟩
  | usartUdre => exact ⟨_, checked_usartUdreVect h, h.mapTx (txIndexed_usartUdreVect h.tx)⟩

/-! ## The calls -/

/-- **A call that keeps to the arrays**, whatever interrupts it. -/
abbrev Checked.Call.Safe {α : Type} (p : Checked.Call α) : Prop :=
  Triple (Guarded.contract LinkStatics.Bounded) (Guarded.Holds LinkStatics.Bounded) p fun _ =>
    Guarded.Holds LinkStatics.Bounded

open Guarded

/-- Publishing a head is safe, for the head that is published is within the
buffer. -/
theorem safe_uartTxPublish {head : Byte} (hhead : head.toNat < uartTxBufferSize) :
    (Checked.uartTxPublish head).Safe := by
  refine triple_seq (triple_write fun s h => h.mapTx ⟨hhead, h.tx.2⟩) fun _ => ?_
  refine triple_bind (B := fun _ => True) (triple_read fun _ _ => trivial) fun ucsr0b _ => ?_
  exact triple_seq (triple_write fun s h => h.mapTx h.tx) fun _ => triple_ret

/-- **The loop of `uart_tx_write`**: every head but the first one is masked. -/
theorem safe_uartTxFill {size : ℕ} {data : ℕ → Option Byte} (hdata : Filled data d)
    (hsize : d.length ≤ size) {left index : ℕ} (hleft : index + left ≤ d.length) {head : Byte}
    (hhead : head.toNat < uartTxBufferSize) :
    (Checked.uartTxFill size data left index head).Safe := by
  induction left generalizing index head with
  | zero => exact safe_uartTxPublish hhead
  | succ left ih =>
    have hindex : index < d.length := by omega
    have hbyte : (load size data index).join = some d[index] := by
      rw [load_eq (by omega), hdata index hindex, List.getElem?_eq_getElem hindex]
      rfl
    refine triple_bind (B := fun _ => True) (triple_attempt fun s h => ?_) fun _ _ =>
      ih (by omega) (toNat_txMask_lt _)
    rw [hbyte, Option.bind_eq_bind, Option.bind_some, store_eq hhead]
    exact ⟨(), _, rfl, h.mapTx h.tx, trivial⟩

/-- **`uart_tx_write` is safe** with a length that the array it is given
really has: it reads no byte behind its end. -/
theorem safe_uartTxWrite {length : Byte} {data : Option (ℕ × (ℕ → Option Byte))}
    (hdata : ∀ size array, data = some (size, array) →
      ∃ d : List Byte, d.length = length.toNat ∧ d.length ≤ size ∧ Filled array d) :
    (Checked.uartTxWrite data length).Safe := by
  unfold Checked.uartTxWrite
  split
  · exact triple_ret
  · cases data with
    | none => exact triple_ret
    | some data =>
      obtain ⟨size, array⟩ := data
      obtain ⟨d, hlength, hsize, hfilled⟩ := hdata size array rfl
      refine triple_bind (B := fun head => head.toNat < uartTxBufferSize)
        (triple_read fun s h => h.tx.1) fun head hhead => ?_
      refine triple_bind (B := fun _ => True) (triple_read fun _ _ => trivial) fun tail _ => ?_
      have hused : (head - tail) &&& uartTxBufferMask ≤ uartTxBufferMask :=
        Nat.le_of_lt_succ (toNat_txMask_lt (head - tail))
      refine triple_bind (B := fun _ => True) (triple_require (if_pos hused) trivial)
        fun freeSpace _ => ?_
      split
      · exact triple_ret
      · refine safe_uartTxFill hfilled hsize ?_ hhead
        omega

/-- `uart_read_byte` is safe, with a null pointer too, which it checks for. -/
theorem safe_uartReadByte (null : Bool) : (Checked.uartReadByte null).Safe := by
  unfold Checked.uartReadByte
  split
  · exact triple_ret
  · refine triple_bind (B := fun _ => True) (triple_read fun _ _ => trivial) fun head _ => ?_
    refine triple_bind (B := fun _ => True) (triple_read fun _ _ => trivial) fun tail _ => ?_
    split
    · exact triple_ret
    · refine triple_bind (B := fun tail => tail.toNat < uartRxBufferSize)
        (triple_read fun s h => h.rx.2) fun tail htail => ?_
      refine triple_bind (B := fun _ => True) (triple_attempt fun s h => ?_) fun byte _ => ?_
      · rw [load_eq htail]
        exact ⟨_, s, rfl, h, trivial⟩
      · exact triple_seq (triple_write fun s h => h.mapRx ⟨h.rx.1, toNat_rxMask_lt _⟩) fun _ =>
          triple_ret

theorem safe_uartWriteString (text : List Byte) : (Checked.uartWriteString text).Safe := by
  induction text with
  | nil => exact triple_ret
  | cons byte text ih =>
    exact triple_seq (triple_write fun s h => h.mapTx h.tx) fun _ => ih

/-- **A frame in range is sent** past both guards. -/
theorem safe_protocolSendFrame (h : m.Carries d) : (Checked.protocolSendFrame m).Safe := by
  obtain ⟨array, length, hencode, hlength, hfilled⟩ := checked_encodeFrame h
  refine triple_bind (B := fun encoded => encoded = (array, length)) (triple_require hencode rfl) ?_
  rintro _ rfl
  refine safe_uartTxWrite ?_
  intro size array' heq
  obtain ⟨rfl, rfl⟩ := Prod.mk.inj (Option.some.inj heq)
  refine ⟨_, ?_, ?_, hfilled⟩
  · simp only [List.length_append, List.length_cons, List.length_nil]
    omega
  · have hle : d.length ≤ 8 := h.length_le
    simp only [List.length_append, List.length_cons, List.length_nil, maxFrameSize, payloadSize]
    omega

/-- The response that is sent is the slot's own, whose length was checked when
it was prepared. -/
theorem safe_serveResponse : Checked.serveResponse.Safe := by
  refine triple_bind (B := fun response => ∀ m, response = some m → ∃ d, m.Carries d)
    (triple_attempt fun s h => ?_) fun response hresponse => ?_
  · split
    · exact ⟨none, s, rfl, h, fun m hm => nomatch hm⟩
    · obtain ⟨p, hp, hbounded⟩ := h.protocol
      have hpending : s.protocol.slots.pendingFrame.length.toNat ≤ payloadSize := by
        rw [hp]
        exact hbounded.pending
      obtain ⟨m, hm, hcarries⟩ := checked_protocolGetResponse hpending
      rw [hm]
      refine ⟨some m, s, rfl, h, fun m' heq => ?_⟩
      rw [← Option.some.inj heq]
      exact ⟨_, hcarries⟩
  · cases response with
    | none => exact triple_ret
    | some m =>
      obtain ⟨d, hcarries⟩ := hresponse m rfl
      refine triple_seq (safe_protocolSendFrame hcarries) fun sent => ?_
      split
      · exact triple_write fun s h => h.mapSlots fun _ => rfl
      · exact triple_ret

/-- A status frame is built in a buffer on the stack, and the payload of each
kind fits into it. -/
theorem safe_protocolSendStatus (sequence : Byte) (a : StatusArgs) :
    (Checked.protocolSendStatus a.kind sequence a.payload).Safe := by
  have hlength : a.payload.length ≤ payloadSize := by
    rw [a.length_payload]
    exact a.kind.payloadLength_le
  obtain ⟨m, hm, hcarries⟩ :
      ∃ m, Checked.statusFrame a.kind sequence a.payload = some m ∧ m.Carries a.payload :=
    checked_statusFrame hlength
  refine triple_bind (B := fun frame => frame = m) (triple_require hm rfl) ?_
  rintro _ rfl
  refine triple_seq (safe_protocolSendFrame hcarries) fun sent => ?_
  split
  · exact triple_ret
  · exact triple_write fun s h => h.mapSlots fun _ => rfl

/-- **Every operation keeps to the arrays.** -/
theorem safe_task (call : LinkCall) : call.task.Safe := by
  cases call with
  | protocolProcessByte byte nowMs =>
    have hbyte : ∀ s : LinkStatics, s.Bounded → ∃ (b : Unit) (s' : LinkStatics),
        (Checked.protocolProcessByte byte nowMs s.protocol).map (fun p =>
          ((), { s with protocol := p })) = some (b, s') ∧ s'.Bounded ∧ True := by
      intro s h
      obtain ⟨p, hp, hbounded⟩ := h.protocol
      rw [hp, checked_protocolProcessByte hbounded]
      exact ⟨(), _, rfl, ⟨⟨_, rfl, hbounded.processByte byte nowMs⟩, h.rx, h.tx⟩, trivial⟩
    exact (triple_attempt hbyte).conseq (fun _ hg => hg) fun _ _ hg => hg.2
  | protocolCheckTimeout nowMs =>
    refine triple_write fun s h => ?_
    obtain ⟨p, hp, hbounded⟩ := h.protocol
    refine ⟨⟨protocolCheckTimeout nowMs p, ?_, hbounded.checkTimeout nowMs⟩, h.rx, h.tx⟩
    rw [← checked_protocolCheckTimeout, ← hp]
  | serveResponse => exact safe_serveResponse
  | protocolSendStatus sequence a => exact safe_protocolSendStatus sequence a
  | uartTxWrite a =>
    refine triple_seq (safe_uartTxWrite ?_) fun _ => triple_ret
    intro size array heq
    obtain ⟨d, hd, heq⟩ := Option.map_eq_some_iff.mp heq
    obtain ⟨rfl, rfl⟩ := Prod.mk.inj heq
    exact ⟨d, a.readable d hd, Nat.le_refl _, fun _ _ => rfl⟩
  | uartReadByte null => exact triple_seq (safe_uartReadByte null) fun _ => triple_ret
  | uartWriteByte byte => exact triple_write fun s h => h.mapTx h.tx
  | uartWriteString text => exact safe_uartWriteString text

/-- **No sequence of bytes, times and calls leads out of a buffer.** After
`protocol_init` and `uart_init`, whatever was in memory before: in every
order of the operations and of the interrupts among their accesses, no
access to an array is out of range, no length wraps, and no branch is taken
that is there for safety; and the parser, the response slot and the indices
of the rings are within their bounds. -/
theorem buffers_safe (p : Protocol) (u : Uart) (es : List (Event LinkCall LinkInterrupt))
    (c : Config (Guarded LinkStatics) LinkCall Unit)
    (hrun : linkMachine.run ⟨⟨LinkStatics.init p u, false⟩, none, []⟩ es = some c) :
    c.state.faulted = false ∧
    (c.state.state.protocol.parserState = ParserState.readPayload.value →
      c.state.state.protocol.payloadIndex < c.state.state.protocol.receivedFrame.length ∧
        c.state.state.protocol.receivedFrame.length.toNat ≤ 8) ∧
    (c.state.state.protocol.parserState = ParserState.readCrc.value →
      c.state.state.protocol.receivedFrame.length.toNat ≤ 8 ∧
        c.state.state.protocol.payloadIndex = c.state.state.protocol.receivedFrame.length) ∧
    (∃ state : ParserState, c.state.state.protocol.parserState = state.value) ∧
    c.state.state.protocol.slots.pendingFrame.length.toNat ≤ 8 ∧
    c.state.state.uart.rx.rxHead.toNat < 32 ∧ c.state.state.uart.rx.rxTail.toNat < 32 ∧
    c.state.state.uart.tx.txHead.toNat < 64 ∧ c.state.state.uart.tx.txTail.toNat < 64 := by
  have hholds : Holds LinkStatics.Bounded c.state := by
    refine run_holds (M := linkMachine) ?_ safe_task ⟨rfl, LinkStatics.bounded_init p u⟩ hrun
    rintro x g _ ⟨⟩ hg
    exact holds_handle (fun s h => x.bounded_handler h) hg
  obtain ⟨hfault, hbounded⟩ := hholds
  obtain ⟨q, hq, hparser⟩ := hbounded.protocol
  have hvalue : c.state.state.protocol.parserState = q.parserState.value := by rw [hq]; rfl
  refine ⟨hfault, ?_, ?_, ⟨q.parserState, hvalue⟩, ?_, hbounded.rx.1, hbounded.rx.2,
    hbounded.tx.1, hbounded.tx.2⟩
  · intro hs
    rw [hvalue, value_inj] at hs
    rw [hq]
    exact hparser.readPayload hs
  · intro hs
    rw [hvalue, value_inj] at hs
    rw [hq]
    exact hparser.readCrc hs
  · rw [hq]
    exact hparser.pending

/-- A frame that announces 255 bytes, and an interrupt between two calls. -/
theorem buffers_safe_echo :
    ∃ c, linkMachine.run ⟨⟨LinkStatics.init Protocol.zeroed Uart.zeroed, false⟩, none, []⟩
        [.dispatch (.protocolProcessByte 0xA5 0), .foreground,
          .dispatch (.protocolProcessByte 0x01 1), .foreground,
          .dispatch (.protocolProcessByte 0x02 2), .foreground, .env (.usartRx 0x77),
          .dispatch (.protocolProcessByte 0x09 3), .foreground,
          .dispatch (.protocolProcessByte 0xFF 4), .foreground] = some c ∧
      c.state.faulted = false := by
  have hrun : ∃ c, linkMachine.run
      ⟨⟨LinkStatics.init Protocol.zeroed Uart.zeroed, false⟩, none, []⟩
      [.dispatch (.protocolProcessByte 0xA5 0), .foreground,
        .dispatch (.protocolProcessByte 0x01 1), .foreground,
        .dispatch (.protocolProcessByte 0x02 2), .foreground, .env (.usartRx 0x77),
        .dispatch (.protocolProcessByte 0x09 3), .foreground,
        .dispatch (.protocolProcessByte 0xFF 4), .foreground] = some c := ⟨_, rfl⟩
  obtain ⟨c, hrun⟩ := hrun
  exact ⟨c, hrun, (buffers_safe Protocol.zeroed Uart.zeroed _ c hrun).1⟩

end SentryCell
