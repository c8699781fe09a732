import SentryCell.Lib.Machine
import SentryCell.Lib.Ring
import SentryCell.Lib.Word
import Mathlib.Data.List.Basic
/-!
# USART0: two rings, two interrupt handlers

`firmware/hal/uart.c`. The receive interrupt produces into the 32-byte RX
ring that the foreground consumes; the foreground produces into the
64-byte TX ring that the data-register-empty interrupt consumes. The two
halves share no variable but `UCSR0B`, which only the transmitting one
writes after `uart_init`. A handler runs to completion; the foreground
functions are programs whose every access to a volatile variable or to
`UCSR0B` is a step of its own. The bytes written to `UDR0` are kept as the
list the wire sees.
-/

namespace SentryCell

open Foreground Word

def uartRxBufferSize : ℕ := 32
def uartRxBufferMask : Byte := 31#8
def uartTxBufferSize : ℕ := 64
def uartTxBufferMask : Byte := 63#8

/-- The bits of `UCSR0B` the driver uses. -/
def txen0 : ℕ := 3
def rxen0 : ℕ := 4
def udrie0 : ℕ := 5
def rxcie0 : ℕ := 7

/-- The receiving half: the ring, its indices and its overflow counter. -/
structure UartRx where
  rxBuffer : ℕ → Byte
  rxHead : Byte
  rxTail : Byte
  rxOverflowCount : Byte

/-- The transmitting half: the ring, its indices, the control register
both halves are enabled in, and what has been written to the data
register. -/
structure UartTx where
  txBuffer : ℕ → Byte
  txHead : Byte
  txTail : Byte
  ucsr0b : Byte
  /-- The bytes written to `UDR0`, oldest first. -/
  udr0 : List Byte

/-- The driver's static variables and registers. -/
structure Uart where
  rx : UartRx
  tx : UartTx

/-- Static storage before `main`: all zero. -/
def Uart.zeroed : Uart where
  rx := ⟨fun _ => 0, 0, 0, 0⟩
  tx := ⟨fun _ => 0, 0, 0, 0, []⟩

/-- `uart_init`. The buffers keep what they held. -/
def uartInit (u : Uart) : Uart where
  rx := { u.rx with rxHead := 0, rxTail := 0, rxOverflowCount := 0 }
  tx := { u.tx with
    txHead := 0, txTail := 0
    ucsr0b := bit txen0 ||| bit rxen0 ||| bit rxcie0 }

/-- `USART_RX_vect`, on the byte read from `UDR0`. -/
def usartRxVect (byte : Byte) (u : UartRx) : UartRx :=
  let head := u.rxHead
  let nextHead := (head + 1) &&& uartRxBufferMask
  if nextHead ≠ u.rxTail then
    { u with rxBuffer := Function.update u.rxBuffer head.toNat byte, rxHead := nextHead }
  -- the ring is full: the byte is lost, and the loss is counted up to 255
  else if u.rxOverflowCount ≠ 255 then
    { u with rxOverflowCount := u.rxOverflowCount + 1 }
  else u

/-- `USART_UDRE_vect`. -/
def usartUdreVect (u : UartTx) : UartTx :=
  let tail := u.txTail
  if u.txHead ≠ tail then
    { u with
      udr0 := u.udr0 ++ [u.txBuffer tail.toNat]
      txTail := (tail + 1) &&& uartTxBufferMask }
  -- nothing left to send, so the interrupt turns itself off
  else { u with ucsr0b := u.ucsr0b &&& ~~~bit udrie0 }

/-- The arguments of `uart_tx_write`: a pointer, `none` where it is null,
and the number of bytes that may be read there. -/
structure TxArgs where
  data : Option (List Byte)
  length : Byte
  readable : ∀ d, data = some d → d.length = length.toNat

/-- The bytes a call offers. -/
def TxArgs.bytes (a : TxArgs) : List Byte := a.data.getD []

/-- The write of `UCSR0B |= 1 << UDRIE0`, on the value it read. -/
def uartTxEnableStore (ucsr0b : Byte) : Prog UartTx Byte := do
  Prog.write fun u => { u with ucsr0b := ucsr0b ||| bit udrie0 }
  pure 1

/-- The end of `uart_tx_write`: `UCSR0B |= 1 << UDRIE0` and the result. -/
def uartTxEnable : Prog UartTx Byte := do
  let ucsr0b ← Prog.read fun u => u.ucsr0b
  uartTxEnableStore ucsr0b

/-- The copy loop of `uart_tx_write` from the local `head`, and the update
of `tx_head` after it. -/
def uartTxFill : List Byte → Byte → Prog UartTx Byte
  | [], head => do
    -- the bytes become visible to the interrupt with this write, all at once
    Prog.write fun u => { u with txHead := head }
    uartTxEnable
  | byte :: data, head => do
    Prog.write fun u => { u with txBuffer := Function.update u.txBuffer head.toNat byte }
    uartTxFill data ((head + 1) &&& uartTxBufferMask)

/-- `uart_tx_write` once `tx_head` is read: the read of `tx_tail`, and the
room test on it. -/
def uartTxReserve (data : List Byte) (length head : Byte) : Prog UartTx Byte := do
  let tail ← Prog.read fun u => u.txTail
  let used := (head - tail) &&& uartTxBufferMask
  -- one slot stays empty, as a full ring would look like an empty one
  let freeSpace := uartTxBufferMask - used
  if length > freeSpace then pure 0 else uartTxFill data head

/-- `uart_tx_write`. -/
def uartTxWrite (a : TxArgs) : Prog UartTx Byte :=
  if a.length = 0 then pure 1
  else match a.data with
    | none => pure 0
    | some data => do
      let head ← Prog.read fun u => u.txHead
      uartTxReserve data a.length head

/-- `uart_read_byte` from its second read of `rx_tail` on. -/
def uartTakeByte : Prog UartRx (Option Byte) := do
  let tail ← Prog.read fun u => u.rxTail
  let byte ← Prog.read fun u => u.rxBuffer tail.toNat
  Prog.write fun u => { u with rxTail := (tail + 1) &&& uartRxBufferMask }
  pure (some byte)

/-- `uart_read_byte`, with the out-parameter and the result in one: `none`
is the result `0`. The argument says whether the pointer is null. -/
def uartReadByte (null : Bool) : Prog UartRx (Option Byte) :=
  if null then pure none
  else do
    -- the foreground alone writes `rx_tail`, so the order of the two reads is free
    let head ← Prog.read fun u => u.rxHead
    let tail ← Prog.read fun u => u.rxTail
    if head = tail then pure none else uartTakeByte

/-! ## The queues the rings stand for -/

/-- The bytes received and not yet read, oldest first. -/
def UartRx.rxQueue (u : UartRx) : List Byte :=
  Ring.contents uartRxBufferSize u.rxBuffer u.rxHead.toNat u.rxTail.toNat

/-- The bytes enqueued and not yet sent, oldest first. -/
def UartTx.txQueue (u : UartTx) : List Byte :=
  Ring.contents uartTxBufferSize u.txBuffer u.txHead.toNat u.txTail.toNat

/-- Everything enqueued since the start, sent or not. -/
def UartTx.txStream (u : UartTx) : List Byte := u.udr0 ++ u.txQueue

/-- The RX indices lie in the RX buffer. -/
def UartRx.RxIndexed (u : UartRx) : Prop :=
  u.rxHead.toNat < uartRxBufferSize ∧ u.rxTail.toNat < uartRxBufferSize

/-- The TX indices lie in the TX buffer. -/
def UartTx.TxIndexed (u : UartTx) : Prop :=
  u.txHead.toNat < uartTxBufferSize ∧ u.txTail.toNat < uartTxBufferSize

/-- The masked increment of the code is the next slot of the receive ring, for
its size is a power of two. -/
theorem toNat_rxNext {i : Byte} (hi : i.toNat < uartRxBufferSize) :
    ((i + 1) &&& uartRxBufferMask).toNat = Ring.next uartRxBufferSize i.toNat := by
  have hm : ((i + 1) &&& uartRxBufferMask).toNat = (i + 1).toNat % 2 ^ 5 :=
    toNat_and_mask (i + 1) 5 (by omega)
  have ha : (i + 1).toNat = (i.toNat + 1) % 256 := by
    rw [BitVec.toNat_add]
    rfl
  rw [hm, ha, Ring.next_eq_mod hi]
  unfold uartRxBufferSize
  omega

/-- The masked increment is the next slot of the transmit ring too, whose size
is the other power of two. -/
theorem toNat_txNext {i : Byte} (hi : i.toNat < uartTxBufferSize) :
    ((i + 1) &&& uartTxBufferMask).toNat = Ring.next uartTxBufferSize i.toNat := by
  have hm : ((i + 1) &&& uartTxBufferMask).toNat = (i + 1).toNat % 2 ^ 6 :=
    toNat_and_mask (i + 1) 6 (by omega)
  have ha : (i + 1).toNat = (i.toNat + 1) % 256 := by
    rw [BitVec.toNat_add]
    rfl
  rw [hm, ha, Ring.next_eq_mod hi]
  unfold uartTxBufferSize
  omega

/-- The masked difference of the indices is the number of bytes between. -/
theorem toNat_txUsed {head tail : Byte} (hh : head.toNat < uartTxBufferSize)
    (ht : tail.toNat < uartTxBufferSize) :
    ((head - tail) &&& uartTxBufferMask).toNat =
      Ring.count uartTxBufferSize head.toNat tail.toNat := by
  have hm : ((head - tail) &&& uartTxBufferMask).toNat = (head - tail).toNat % 2 ^ 6 :=
    toNat_and_mask (head - tail) 6 (by omega)
  rw [hm, BitVec.toNat_sub, Ring.count]
  simp only [uartTxBufferSize] at hh ht ⊢
  split_ifs <;> omega

/-- **The room test.** A call is turned away exactly when its bytes do not
fit beside the ones between the two indices it read. -/
theorem txLength_gt_free_iff {length head tail : Byte} (hh : head.toNat < uartTxBufferSize)
    (ht : tail.toNat < uartTxBufferSize) :
    length > uartTxBufferMask - ((head - tail) &&& uartTxBufferMask) ↔
      63 < Ring.count uartTxBufferSize head.toNat tail.toNat + length.toNat := by
  have hu := toNat_txUsed hh ht
  have hc := Ring.count_lt hh ht
  have hl := length.isLt
  simp only [uartTxBufferSize] at hc
  rw [gt_iff_lt, BitVec.lt_def, BitVec.toNat_sub, hu]
  have hmask : uartTxBufferMask.toNat = 63 := rfl
  simp only [uartTxBufferSize] at hu ⊢
  omega

/-- A call with a buffer writes what is in it. -/
theorem TxArgs.bytes_of_data {a : TxArgs} {d : List Byte} (h : a.data = some d) :
    a.bytes = d := by
  simp [TxArgs.bytes, h]

/-- The arguments for a list of bytes. -/
def TxArgs.ofList (d : List Byte) (h : d.length < 256) : TxArgs where
  data := some d
  length := BitVec.ofNat 8 d.length
  readable := by
    rintro _ ⟨⟩
    simp [Nat.mod_eq_of_lt h]

@[simp] theorem TxArgs.bytes_ofList {d : List Byte} {h : d.length < 256} :
    (TxArgs.ofList d h).bytes = d := rfl

end SentryCell
