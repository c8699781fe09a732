import SentryCell.Hal.Uart
/-!
# Sending: a call of `uart_tx_write` and the interrupt that drains it

The producer fills slots behind the queue from a stale tail, publishes
them by one write of `tx_head`, and only then sets `UDRIE0`; the
interrupt may run between any two of these accesses. `TxReading`,
`TxFilling` and `TxPublished` say where a call stands and what the state
owes it there. Each access moves a call along them (`TxReading.next`,
`TxFilling.next`, `TxPublished.next`), and the interrupt leaves a call
where it is.
-/

namespace SentryCell

open Foreground Word Machine

variable {a : TxArgs} {u u' : UartTx} {p p' : Prog UartTx Byte}

/-! ## The interrupt -/

/-- The queue has as many bytes as lie between tail and head. -/
theorem txQueue_length : u.txQueue.length =
    Ring.count uartTxBufferSize u.txHead.toNat u.txTail.toNat := Ring.length_contents

/-- One slot of the ring always stays free, or a full ring would look like an
empty one. -/
theorem txQueue_length_lt (hu : u.TxIndexed) : u.txQueue.length < uartTxBufferSize := by
  rw [txQueue_length]
  exact Ring.count_lt hu.1 hu.2

/-- It is empty where the indices are equal, which is what the interrupt
tests. -/
theorem txQueue_eq_nil_iff (hu : u.TxIndexed) : u.txQueue = [] ↔ u.txHead = u.txTail := by
  unfold UartTx.txQueue
  rw [Ring.contents_eq_nil_iff hu.2, BitVec.toNat_inj]

/-- **What the interrupt does**: it sends the oldest byte, or finds none
and disables itself. -/
theorem usartUdreVect_cases (hu : u.TxIndexed) :
    (∃ b, u.txQueue = b :: (usartUdreVect u).txQueue ∧ u.txHead ≠ u.txTail ∧
      usartUdreVect u =
        { u with udr0 := u.udr0 ++ [b], txTail := (u.txTail + 1) &&& uartTxBufferMask }) ∨
    (u.txQueue = [] ∧ usartUdreVect u = { u with ucsr0b := u.ucsr0b &&& ~~~bit udrie0 }) := by
  by_cases h : u.txHead = u.txTail
  · refine .inr ⟨(txQueue_eq_nil_iff hu).mpr h, ?_⟩
    simp [usartUdreVect, h]
  · have hne : u.txHead.toNat ≠ u.txTail.toNat := fun he => h (BitVec.eq_of_toNat_eq he)
    have he : usartUdreVect u =
        { u with
          udr0 := u.udr0 ++ [u.txBuffer u.txTail.toNat]
          txTail := (u.txTail + 1) &&& uartTxBufferMask } := by
      simp [usartUdreVect, h]
    refine .inl ⟨u.txBuffer u.txTail.toNat, ?_, h, he⟩
    rw [he]
    unfold UartTx.txQueue
    rw [Ring.contents_pop hu.1 hu.2 hne, toNat_txNext hu.2]

/-- The interrupt does not move the head, which is the task's. -/
@[simp] theorem txHead_usartUdreVect : (usartUdreVect u).txHead = u.txHead := by
  simp only [usartUdreVect]
  split <;> rfl

/-- The transmit interrupt only reads the buffer: its bytes stay what
they were. -/
@[simp] theorem txBuffer_usartUdreVect : (usartUdreVect u).txBuffer = u.txBuffer := by
  simp only [usartUdreVect]
  split <;> rfl

/-- The transmit interrupt keeps both indices within the ring. -/
theorem txIndexed_usartUdreVect (hu : u.TxIndexed) : (usartUdreVect u).TxIndexed := by
  obtain ⟨b, -, -, he⟩ | ⟨-, he⟩ := usartUdreVect_cases hu
  · refine ⟨by rw [he]; exact hu.1, ?_⟩
    rw [he]
    show ((u.txTail + 1) &&& uartTxBufferMask).toNat < uartTxBufferSize
    rw [toNat_txNext hu.2]
    exact Ring.next_lt hu.2
  · rw [he]
    exact hu

/-- **The interrupt moves bytes from the queue to the wire**, and neither
loses nor reorders one. -/
theorem txStream_usartUdreVect (hu : u.TxIndexed) :
    (usartUdreVect u).txStream = u.txStream := by
  obtain ⟨b, hq, -, he⟩ | ⟨-, he⟩ := usartUdreVect_cases hu
  · have hudr : (usartUdreVect u).udr0 = u.udr0 ++ [b] := by rw [he]
    unfold UartTx.txStream
    rw [hudr, hq, List.append_assoc]
    rfl
  · rw [he]
    rfl

/-- It never makes the queue longer, so that room that was found stays. -/
theorem txQueue_length_usartUdreVect_le (hu : u.TxIndexed) :
    (usartUdreVect u).txQueue.length ≤ u.txQueue.length := by
  obtain ⟨b, hq, -, -⟩ | ⟨-, he⟩ := usartUdreVect_cases hu
  · rw [hq, List.length_cons]
    omega
  · rw [he]
    exact Nat.le_refl _

/-- Of the bits of `UCSR0B` the transmit interrupt clears its own enable, and
no other. -/
theorem isSet_ucsr0b_usartUdreVect {i : ℕ} (hi : i < 8) (hne : i ≠ udrie0) :
    isSet (usartUdreVect u).ucsr0b i = isSet u.ucsr0b i := by
  simp only [usartUdreVect]
  split
  · rfl
  · simp [isSet_and_not_bit hi, hne]

/-! ## Where a call stands -/

/-- The local head of a call that has copied `done` behind the queue. -/
def TxFilled (u : UartTx) (head : Byte) (done : List Byte) : Prop :=
  head.toNat < uartTxBufferSize ∧
    Ring.contents uartTxBufferSize u.txBuffer head.toNat u.txTail.toNat = u.txQueue ++ done

/-- **A call that has only read.** -/
inductive TxReading (a : TxArgs) (u : UartTx) : Prog UartTx Byte → Prop
  | start {d : List Byte} (hl : a.length ≠ 0) (hd : a.data = some d) :
      TxReading a u (uartTxWrite a)
  | reserve {d : List Byte} (hl : a.length ≠ 0) (hd : a.data = some d) :
      TxReading a u (uartTxReserve d a.length u.txHead)

/-- **A call that was granted room**, and has copied `done` of its bytes. -/
inductive TxFilling (a : TxArgs) (u : UartTx) : Prog UartTx Byte → Prop
  | fill {done rest : List Byte} {head : Byte} (hl : a.length ≠ 0)
      (hd : a.data = some (done ++ rest)) (hf : TxFilled u head done)
      (hroom : u.txQueue.length + done.length + rest.length < uartTxBufferSize) :
      TxFilling a u (uartTxFill rest head)

/-- **A call that has performed its update of `tx_head`.** The value of
`UCSR0B` it holds can be stale in `UDRIE0` alone. -/
inductive TxPublished (u : UartTx) : Prog UartTx Byte → Prop
  | enable : TxPublished u uartTxEnable
  | store {ucsr0b : Byte}
      (hr : ∀ i < 8, i ≠ udrie0 → isSet ucsr0b i = isSet u.ucsr0b i) :
      TxPublished u (uartTxEnableStore ucsr0b)

/-- What was filled in behind the head stays as it was filled. -/
theorem txFilled_usartUdreVect {head : Byte} {done : List Byte} (hu : u.TxIndexed)
    (h : TxFilled u head done) : TxFilled (usartUdreVect u) head done := by
  obtain ⟨hh, hc⟩ := h
  obtain ⟨b, hq, -, he⟩ | ⟨-, he⟩ := usartUdreVect_cases hu
  · refine ⟨hh, ?_⟩
    rw [hq, List.cons_append] at hc
    -- the byte that went out was the oldest of the longer queue as well
    obtain ⟨-, -, hrest⟩ := Ring.contents_head_eq hh hu.2 hc
    rw [← hrest, ← toNat_txNext hu.2, he]
  · rw [he]
    exact ⟨hh, hc⟩

/-- An interrupt before the room is judged leaves the call reading. -/
theorem TxReading.usartUdreVect (h : TxReading a u p) : TxReading a (usartUdreVect u) p := by
  rcases h with ⟨hl, hd⟩ | ⟨hl, hd⟩
  · exact .start hl hd
  · rw [← txHead_usartUdreVect (u := u)]
    exact .reserve hl hd

/-- **An interrupt while the ring is filled** leaves the bytes in place and
the room that was found. -/
theorem TxFilling.usartUdreVect (hu : u.TxIndexed) (h : TxFilling a u p) :
    TxFilling a (usartUdreVect u) p := by
  obtain ⟨hl, hd, hf, hroom⟩ := h
  have hq := txQueue_length_usartUdreVect_le hu
  exact .fill hl hd (txFilled_usartUdreVect hu hf) (by omega)

/-- What a call has published stays so through the transmit interrupt. -/
theorem TxPublished.usartUdreVect (h : TxPublished u p) : TxPublished (usartUdreVect u) p := by
  rcases h with _ | hr
  · exact .enable
  · exact .store fun i hi hne => (hr i hi hne).trans (isSet_ucsr0b_usartUdreVect hi hne).symm

/-! ## One access of a call -/

/-- A call with a length and a buffer reads the head and then reserves
from it. -/
theorem uartTxWrite_eq {d : List Byte} (hl : a.length ≠ 0) (hd : a.data = some d) :
    uartTxWrite a =
      (Prog.read fun u : UartTx => u.txHead).bind fun head => uartTxReserve d a.length head := by
  rw [uartTxWrite, if_neg hl, hd]
  rfl

/-- A call of no bytes succeeds, and a null pointer fails, at once. -/
theorem uartTxWrite_cases (a : TxArgs) :
    (a.length = 0 ∧ uartTxWrite a = .ret 1) ∨
    (a.length ≠ 0 ∧ a.data = none ∧ uartTxWrite a = .ret 0) ∨
    (∀ u, TxReading a u (uartTxWrite a)) := by
  by_cases hl : a.length = 0
  · exact .inl ⟨hl, by rw [uartTxWrite, if_pos hl]; rfl⟩
  · rcases hd : a.data with _ | d
    · exact .inr (.inl ⟨hl, rfl, by rw [uartTxWrite, if_neg hl, hd]; rfl⟩)
    · exact .inr (.inr fun u => .start hl hd)

/-- A call that starts to fill has copied nothing yet. -/
theorem txFilled_nil (hu : u.TxIndexed) : TxFilled u u.txHead [] :=
  ⟨hu.1, by simp [UartTx.txQueue]⟩

/-- **The room test, answered**: a call that fits fills, and one that does
not returns `0`. -/
theorem uartTxReserve_next {d : List Byte} (hu : u.TxIndexed) (hl : a.length ≠ 0)
    (hd : a.data = some d)
    (hn : (uartTxReserve d a.length u.txHead).next u = some (p', u')) :
    u' = u ∧ ((u.txQueue.length + a.length.toNat < uartTxBufferSize ∧ TxFilling a u p' ∧
        p' = uartTxFill d u.txHead) ∨
      (uartTxBufferSize ≤ u.txQueue.length + a.length.toNat ∧ p' = .ret 0)) := by
  have hgt : a.length > uartTxBufferMask - ((u.txHead - u.txTail) &&& uartTxBufferMask) ↔
      63 < Ring.count uartTxBufferSize u.txHead.toNat u.txTail.toNat + a.length.toNat :=
    txLength_gt_free_iff hu.1 hu.2
  have hlen := a.readable d hd
  simp only [uartTxReserve, Prog.bind_eq, Prog.next_read_bind, Option.some.injEq,
    Prod.mk.injEq] at hn
  obtain ⟨rfl, rfl⟩ := hn
  refine ⟨rfl, ?_⟩
  rw [txQueue_length]
  by_cases hroom : a.length > uartTxBufferMask - ((u.txHead - u.txTail) &&& uartTxBufferMask)
  · refine .inr ⟨?_, by rw [if_pos hroom]; rfl⟩
    have := hgt.mp hroom
    unfold uartTxBufferSize at this ⊢
    omega
  · have hfit : Ring.count uartTxBufferSize u.txHead.toNat u.txTail.toNat + a.length.toNat <
        uartTxBufferSize := by
      have := mt hgt.mpr hroom
      unfold uartTxBufferSize at this ⊢
      omega
    rw [if_neg hroom]
    refine .inl ⟨hfit, ?_, rfl⟩
    have hd' : a.data = some ([] ++ d) := hd
    refine .fill hl hd' (txFilled_nil hu) ?_
    rw [txQueue_length, List.length_nil, hlen]
    omega

/-- One access of a call that has only read changes nothing. -/
theorem TxReading.next (hu : u.TxIndexed) (h : TxReading a u p)
    (hn : p.next u = some (p', u')) :
    u' = u ∧ (TxReading a u p' ∨ TxFilling a u p' ∨
      (uartTxBufferSize ≤ u.txQueue.length + a.length.toNat ∧ p' = .ret 0)) := by
  rcases h with ⟨hl, hd⟩ | ⟨hl, hd⟩
  · rw [uartTxWrite_eq hl hd, Prog.next_read_bind] at hn
    obtain ⟨rfl, rfl⟩ : uartTxReserve _ a.length u.txHead = p' ∧ u = u' := by simpa using hn
    exact ⟨rfl, .inl (.reserve hl hd)⟩
  · obtain ⟨rfl, ⟨-, hf, -⟩ | hp⟩ := uartTxReserve_next hu hl hd hn
    · exact ⟨rfl, .inr (.inl hf)⟩
    · exact ⟨rfl, .inr (.inr hp)⟩

/-- The slots of the unsent bytes. -/
def UartTx.Unsent (u : UartTx) (i : ℕ) : Prop :=
  ∃ k < u.txQueue.length, Ring.slot uartTxBufferSize u.txTail.toNat k = i

/-- A slot that holds no unsent byte is written without touching the queue. -/
theorem txQueue_update {i : ℕ} {b : Byte} (hi : ¬ u.Unsent i) :
    UartTx.txQueue { u with txBuffer := Function.update u.txBuffer i b } = u.txQueue := by
  refine Ring.contents_update_of_ne fun k hk hs => hi ⟨k, ?_, hs⟩
  rw [txQueue_length]
  exact hk

/-- Up to where it is filled the ring holds the queue and the bytes of
the call. -/
theorem count_of_txFilled {head : Byte} {done : List Byte} (h : TxFilled u head done) :
    Ring.count uartTxBufferSize head.toNat u.txTail.toNat = u.txQueue.length + done.length := by
  have := congrArg List.length h.2
  rwa [Ring.length_contents, List.length_append] at this

/-- **One access of a call that was granted room** copies a byte into a
free slot, or publishes all of them. -/
theorem TxFilling.next (hu : u.TxIndexed) (h : TxFilling a u p)
    (hn : p.next u = some (p', u')) :
    (∃ i b, u' = { u with txBuffer := Function.update u.txBuffer i b } ∧ ¬ u.Unsent i ∧
      TxFilling a u' p') ∨
    (∃ head : Byte, u' = { u with txHead := head } ∧ head ≠ u.txHead ∧
      head.toNat < uartTxBufferSize ∧ u'.txQueue = u.txQueue ++ a.bytes ∧ p' = uartTxEnable) := by
  obtain @⟨done, rest, head, hl, hd, hf, hroom⟩ := h
  have hcount := count_of_txFilled hf
  obtain ⟨hh, hc⟩ := hf
  rcases rest with _ | ⟨b, rest⟩
  · simp only [uartTxFill, Prog.bind_eq, Prog.next_write_bind, Option.some.injEq,
      Prod.mk.injEq] at hn
    obtain ⟨rfl, rfl⟩ := hn
    have hbytes : a.bytes = done := TxArgs.bytes_of_data (by simpa using hd)
    refine .inr ⟨head, rfl, ?_, hh, by rw [hbytes]; exact hc, rfl⟩
    -- a call of at least one byte moves the head
    rintro rfl
    have hlen := a.readable _ hd
    have hpos : a.length.toNat ≠ 0 := fun h0 => hl (BitVec.eq_of_toNat_eq h0)
    rw [txQueue_length] at hcount
    simp only [List.append_nil] at hlen
    omega
  · simp only [uartTxFill, Prog.bind_eq, Prog.next_write_bind, Option.some.injEq,
      Prod.mk.injEq] at hn
    obtain ⟨rfl, rfl⟩ := hn
    rw [List.length_cons] at hroom
    have hout : ¬ u.Unsent head.toNat := by
      rintro ⟨k, hk, hs⟩
      rw [txQueue_length] at hk hcount
      exact Ring.slot_ne_of_count_le hh hu.2 (by omega) k hk hs
    refine .inl ⟨head.toNat, b, rfl, hout, ?_⟩
    have hd' : a.data = some ((done ++ [b]) ++ rest) := by simpa using hd
    refine .fill hl hd' ⟨?_, ?_⟩ ?_
    · rw [toNat_txNext hh]
      exact Ring.next_lt hh
    · rw [txQueue_update hout, toNat_txNext hh, ← List.append_assoc, ← hc]
      have hfull : Ring.count uartTxBufferSize head.toNat u.txTail.toNat <
          uartTxBufferSize - 1 := by omega
      exact Ring.contents_push hh hu.2 hfull
    · rw [txQueue_update hout, List.length_append, List.length_singleton]
      omega

/-- **What is left of a call after its update of `tx_head`** only sets
`UDRIE0` and succeeds. -/
theorem TxPublished.next (h : TxPublished u p) (hn : p.next u = some (p', u')) :
    (u' = u ∧ TxPublished u p') ∨
    (∃ r, u' = { u with ucsr0b := r } ∧ isSet r udrie0 = true ∧
      (∀ i < 8, i ≠ udrie0 → isSet r i = isSet u.ucsr0b i) ∧ p' = .ret 1) := by
  rcases h with _ | @⟨r, hr⟩
  · simp only [uartTxEnable, Prog.bind_eq, Prog.next_read_bind, Option.some.injEq,
      Prod.mk.injEq] at hn
    obtain ⟨rfl, rfl⟩ := hn
    exact .inl ⟨rfl, .store fun _ _ _ => rfl⟩
  · simp only [uartTxEnableStore, Prog.bind_eq, Prog.next_write_bind, Option.some.injEq,
      Prod.mk.injEq] at hn
    obtain ⟨rfl, rfl⟩ := hn
    refine .inr ⟨_, rfl, ?_, ?_, rfl⟩
    · simp [isSet_or_bit (i := udrie0) (j := udrie0) (by decide)]
    · intro i hi hne
      rw [isSet_or_bit hi, hr i hi hne]
      simp [hne]

/-- A call that is reading has an access left. -/
theorem TxReading.result (h : TxReading a u p) : p.result = none := by
  rcases h with ⟨hl, hd⟩ | _
  · rw [uartTxWrite_eq hl hd]
    rfl
  · rfl

/-- A call that fills the ring has something to write. -/
theorem TxFilling.length_ne_zero (h : TxFilling a u p) : a.length ≠ 0 := by
  obtain ⟨hl, -, -, -⟩ := h
  exact hl

/-- A call that is filling has not returned: it has a head to publish. -/
theorem TxFilling.result (h : TxFilling a u p) : p.result = none := by
  obtain @⟨done, rest, head, -, -, -, -⟩ := h
  rcases rest with _ | _
  · rfl
  · rfl

/-- A call that has published its bytes has not returned either: it has the
interrupt to enable. -/
theorem TxPublished.result (h : TxPublished u p) : p.result = none := by
  rcases h with _ | _
  · rfl
  · rfl

/-! ## How long a call takes -/

/-- **Filling takes one access for each byte** and three to publish them. -/
theorem endsWithin_uartTxFill (rest : List Byte) (head : Byte) :
    EndsWithin (rest.length + 3) (uartTxFill rest head) := by
  induction rest generalizing head with
  | nil =>
    intro _ _ _
    trivial
  | cons b rest ih =>
    intro _
    exact ih ((head + 1) &&& uartTxBufferMask)

/-- Judging the room is one access more, whether or not the bytes are then
copied. -/
theorem endsWithin_uartTxReserve {d : List Byte} (length head : Byte) :
    EndsWithin (d.length + 4) (uartTxReserve d length head) := by
  intro tail
  show EndsWithin (d.length + 3) (if length > uartTxBufferMask -
    ((head - tail) &&& uartTxBufferMask) then pure 0 else uartTxFill d head)
  split
  · trivial
  · exact endsWithin_uartTxFill d head

/-- **A call always returns**, after one access for each byte and five more
at most. -/
theorem endsWithin_uartTxWrite (a : TxArgs) :
    EndsWithin (a.bytes.length + 5) (uartTxWrite a) := by
  by_cases hl : a.length = 0
  · rw [uartTxWrite, if_pos hl]
    trivial
  · rcases hd : a.data with _ | d
    · rw [uartTxWrite, if_neg hl, hd]
      trivial
    · rw [uartTxWrite_eq hl hd, TxArgs.bytes_of_data hd]
      exact fun head => endsWithin_uartTxReserve a.length head

/-! ## A call inside a larger program -/

/-- Where a call inside a larger program stands: before its `tx_head`
update with `P`, past it with `P'`, or returned with `Q`. -/
def TxInside {τ : Type} (L : Lens τ UartTx) (a : TxArgs) (P P' : τ → Prop)
    (Q : Byte → τ → Prop) (q : Prog τ Byte) (t : τ) : Prop :=
  (∃ p, q = p.zoom L ∧ P t ∧ (TxReading a (L.get t) p ∨ TxFilling a (L.get t) p)) ∨
  (∃ p, q = p.zoom L ∧ P' t ∧ a.length ≠ 0 ∧ TxPublished (L.get t) p) ∨
  ∃ r, q = .ret r ∧ Q r t

section Inside

variable {τ : Type} {L : Lens τ UartTx} {P P' : τ → Prop} {Q : Byte → τ → Prop}
variable {q : Prog τ Byte} {t t' : τ}

/-- What has returned inside the judgement keeps its promise. -/
theorem TxInside.post {r : Byte} (h : TxInside L a P P' Q (.ret r) t) : Q r t := by
  obtain ⟨p, hq, -, hr | hf⟩ | ⟨p, hq, -, -, hp⟩ | ⟨r', hq, h⟩ := h
  · have := congrArg Prog.result hq
    rw [Prog.zoom_result, hr.result] at this
    cases this
  · have := congrArg Prog.result hq
    rw [Prog.zoom_result, hf.result] at this
    cases this
  · have := congrArg Prog.result hq
    rw [Prog.zoom_result, hp.result] at this
    cases this
  · cases hq
    exact h

/-- The interrupt, or nothing at all, leaves a call where it is. -/
theorem TxInside.rely (hindexed : ∀ t, P t → (L.get t).TxIndexed)
    (hL : L.get t' = L.get t ∨ L.get t' = usartUdreVect (L.get t)) (hq : q.result = none)
    (hP : P t → P t') (hP' : P' t → P' t') (h : TxInside L a P P' Q q t) :
    TxInside L a P P' Q q t' := by
  obtain ⟨p, rfl, hp, hs⟩ | ⟨p, rfl, hp, hl, hs⟩ | ⟨r, rfl, -⟩ := h
  · refine .inl ⟨p, rfl, hP hp, ?_⟩
    rcases hL with hL | hL
    · rw [hL]
      exact hs
    · rw [hL]
      exact hs.imp (·.usartUdreVect) (·.usartUdreVect (hindexed t hp))
  · refine .inr (.inl ⟨p, rfl, hP' hp, hl, ?_⟩)
    rcases hL with hL | hL
    · rw [hL]
      exact hs
    · rw [hL]
      exact hs.usartUdreVect
  · cases hq

end Inside

/-- **The triple of `uart_tx_write`**, on a component of a larger state.
`P` holds until `tx_head` is updated and `P'` from then on; the caller
shows that copying into a free slot keeps `P`, that publishing the bytes
leads to `P'`, and that setting `UDRIE0` keeps it. -/
theorem uartTxWrite_triple {τ : Type} (L : Lens τ UartTx) {C : Contract τ} (a : TxArgs)
    {P P' : τ → Prop} (hindexed : ∀ t, P t → (L.get t).TxIndexed)
    (hrely : ∀ t t', C.rely t t' → L.get t' = L.get t ∨ L.get t' = usartUdreVect (L.get t))
    (hP : Stable C P) (hP' : Stable C P') (hinv : ∀ t, P t → C.inv t)
    (hinv' : ∀ t, P' t → C.inv t) (hrefl : ∀ t, C.guar t t)
    (hfill : ∀ t i b, P t → ¬ (L.get t).Unsent i →
      let t' := L.set { L.get t with txBuffer := Function.update (L.get t).txBuffer i b } t
      C.guar t t' ∧ P t')
    (hpublish : ∀ t (head : Byte), P t → head.toNat < uartTxBufferSize →
      UartTx.txQueue { L.get t with txHead := head } = (L.get t).txQueue ++ a.bytes →
      let t' := L.set { L.get t with txHead := head } t
      C.guar t t' ∧ P' t')
    (henable : ∀ t r, P' t → isSet r udrie0 = true →
      (∀ i < 8, i ≠ udrie0 → isSet r i = isSet (L.get t).ucsr0b i) →
      let t' := L.set { L.get t with ucsr0b := r } t
      C.guar t t' ∧ P' t') :
    Triple C P ((uartTxWrite a).zoom L) fun r t =>
      (r = 0 ∧ P t ∧
        (a.data = none ∨ uartTxBufferSize ≤ (L.get t).txQueue.length + a.length.toNat)) ∨
      (r = 1 ∧ ((a.length = 0 ∧ P t) ∨ (a.length ≠ 0 ∧ P' t))) := by
  intro t ht
  obtain ⟨hl, hp⟩ | ⟨-, hd, hp⟩ | hread := uartTxWrite_cases a
  · rw [hp]
    exact fun n => safe_ret (.inr ⟨rfl, .inl ⟨hl, ht⟩⟩)
  · rw [hp]
    exact fun n => safe_ret (.inl ⟨rfl, ht, .inl hd⟩)
  · refine Safe.of_stages (R := TxInside L a P P' _) (fun r t h => h.post) ?_ ?_ ?_
      (.inl ⟨_, rfl, ht, .inl (hread _)⟩)
    · intro q t hq h
      obtain ⟨p, -, hp, -⟩ | ⟨p, -, hp, -⟩ | ⟨r, rfl, -⟩ := h
      · exact hinv t hp
      · exact hinv' t hp
      · cases hq
    · intro q t t' hq h hr
      exact h.rely hindexed (hrely t t' hr) hq (fun hp => hP t t' hp hr) fun hp => hP' t t' hp hr
    · intro q t q' t' h hn
      obtain ⟨p, rfl, hp, hs⟩ | ⟨p, rfl, hp, hl, hs⟩ | ⟨r, rfl, -⟩ := h
      · have hu := hindexed t hp
        obtain ⟨p', u', hpn, rfl, rfl⟩ := Prog.zoom_next_eq_some hn
        rcases hs with hs | hs
        · obtain ⟨rfl, hs' | hs' | ⟨hfull, rfl⟩⟩ := hs.next hu hpn
          · rw [Lens.set_get]
            exact ⟨hrefl t, .inl ⟨p', rfl, hp, .inl hs'⟩⟩
          · rw [Lens.set_get]
            exact ⟨hrefl t, .inl ⟨p', rfl, hp, .inr hs'⟩⟩
          · rw [Lens.set_get]
            exact ⟨hrefl t, .inr (.inr ⟨0, rfl, .inl ⟨rfl, hp, .inr hfull⟩⟩)⟩
        · have hl := hs.length_ne_zero
          obtain ⟨i, b, rfl, hi, hs'⟩ | ⟨head, rfl, -, hlt, hq, rfl⟩ := hs.next hu hpn
          · obtain ⟨hg, hp'⟩ := hfill t i b hp hi
            exact ⟨hg, .inl ⟨p', rfl, hp', .inr (by rwa [Lens.get_set])⟩⟩
          · obtain ⟨hg, hp'⟩ := hpublish t head hp hlt hq
            exact ⟨hg, .inr (.inl ⟨_, rfl, hp', hl, .enable⟩)⟩
      · obtain ⟨p', u', hpn, rfl, rfl⟩ := Prog.zoom_next_eq_some hn
        obtain ⟨rfl, hs'⟩ | ⟨r, rfl, hset, hkeep, rfl⟩ := hs.next hpn
        · rw [Lens.set_get]
          exact ⟨hrefl t, .inr (.inl ⟨p', rfl, hp, hl, hs'⟩)⟩
        · obtain ⟨hg, hp'⟩ := henable t r hp hset hkeep
          exact ⟨hg, .inr (.inr ⟨1, rfl, .inr ⟨rfl, .inr ⟨hl, hp'⟩⟩⟩)⟩
      · cases hn

end SentryCell
