import SentryCell.Hal.Uart
/-!
# Receiving: a call of `uart_read_byte` and the interrupt that fills the ring

The interrupt moves `rx_head` and the call moves `rx_tail`. The call tests
the ring on a head that may be out of date, which can only hide a byte
that has just come, and releases a slot by its last access. `RxReading`
says what each point of a call knows; the interrupt keeps it.
-/

namespace SentryCell

open Foreground Word

variable {u u' : UartRx} {b : Byte} {p p' : Prog UartRx (Option Byte)}

/-! ## The interrupt -/

/-- The queue has as many bytes as lie between tail and head. -/
theorem rxQueue_length : u.rxQueue.length =
    Ring.count uartRxBufferSize u.rxHead.toNat u.rxTail.toNat := Ring.length_contents

/-- A ring of 32 slots holds 31 bytes at most. -/
theorem rxQueue_length_le (hu : u.RxIndexed) : u.rxQueue.length ≤ 31 := by
  rw [rxQueue_length]
  exact Nat.le_of_lt_succ (Ring.count_lt hu.1 hu.2)

/-- It is empty where the indices are equal, which is what `uart_read_byte`
tests. -/
theorem rxQueue_eq_nil_iff (hu : u.RxIndexed) : u.rxQueue = [] ↔ u.rxHead = u.rxTail := by
  unfold UartRx.rxQueue
  rw [Ring.contents_eq_nil_iff hu.2, BitVec.toNat_inj]

/-- The ring has no room exactly when it holds 31 bytes. -/
theorem rxNext_eq_rxTail_iff (hu : u.RxIndexed) :
    (u.rxHead + 1) &&& uartRxBufferMask = u.rxTail ↔ u.rxQueue.length = 31 := by
  rw [rxQueue_length, ← BitVec.toNat_inj, toNat_rxNext hu.1, Ring.next_eq_iff hu.1 hu.2]
  exact Iff.rfl

/-- **What the interrupt does**: it queues the byte, or, with 31 bytes
held, drops it and counts it up to 255. -/
theorem usartRxVect_cases (hu : u.RxIndexed) (b : Byte) :
    (u.rxQueue.length ≠ 31 ∧ (usartRxVect b u).rxQueue = u.rxQueue ++ [b] ∧
      usartRxVect b u =
        { u with
          rxBuffer := Function.update u.rxBuffer u.rxHead.toNat b
          rxHead := (u.rxHead + 1) &&& uartRxBufferMask }) ∨
    (u.rxQueue.length = 31 ∧ ∃ n : Byte, usartRxVect b u = { u with rxOverflowCount := n } ∧
      n.toNat = min 255 (u.rxOverflowCount.toNat + 1)) := by
  by_cases hfull : (u.rxHead + 1) &&& uartRxBufferMask = u.rxTail
  · refine .inr ⟨(rxNext_eq_rxTail_iff hu).mp hfull, ?_⟩
    by_cases hc : u.rxOverflowCount = 255
    · refine ⟨u.rxOverflowCount, ?_, ?_⟩
      · simp only [usartRxVect, ne_eq, hfull, hc, not_true_eq_false, if_false]
        rw [← hc]
      · rw [hc]
        decide
    · refine ⟨u.rxOverflowCount + 1, ?_, ?_⟩
      · simp only [usartRxVect, ne_eq, hfull, hc, not_true_eq_false, not_false_eq_true,
          if_false, if_true]
      · have hlt : u.rxOverflowCount.toNat < 256 := u.rxOverflowCount.isLt
        have hne : u.rxOverflowCount.toNat ≠ 255 := fun h => hc (BitVec.eq_of_toNat_eq h)
        rw [BitVec.toNat_add]
        show (u.rxOverflowCount.toNat + 1) % 256 = _
        omega
  · have hlen : u.rxQueue.length ≠ 31 := fun h => hfull ((rxNext_eq_rxTail_iff hu).mpr h)
    have he : usartRxVect b u =
        { u with
          rxBuffer := Function.update u.rxBuffer u.rxHead.toNat b
          rxHead := (u.rxHead + 1) &&& uartRxBufferMask } := by
      simp only [usartRxVect, ne_eq, hfull, not_false_eq_true, if_true]
    refine .inl ⟨hlen, ?_, he⟩
    have hlt := rxQueue_length_le hu
    have hroom : Ring.count uartRxBufferSize u.rxHead.toNat u.rxTail.toNat <
        uartRxBufferSize - 1 := by
      rw [← rxQueue_length]
      unfold uartRxBufferSize
      omega
    rw [he]
    unfold UartRx.rxQueue
    rw [toNat_rxNext hu.1]
    exact Ring.contents_push hu.1 hu.2 hroom

/-- The receive interrupt does not move the tail, which only the task does. -/
@[simp] theorem rxTail_usartRxVect : (usartRxVect b u).rxTail = u.rxTail := by
  simp only [usartRxVect]
  split
  · rfl
  · split <;> rfl

/-- The receive interrupt keeps both indices within the ring. -/
theorem rxIndexed_usartRxVect (hu : u.RxIndexed) : (usartRxVect b u).RxIndexed := by
  obtain ⟨-, -, he⟩ | ⟨-, n, he, -⟩ := usartRxVect_cases hu b
  · refine ⟨?_, by rw [he]; exact hu.2⟩
    rw [he]
    show ((u.rxHead + 1) &&& uartRxBufferMask).toNat < uartRxBufferSize
    rw [toNat_rxNext hu.1]
    exact Ring.next_lt hu.1
  · rw [he]
    exact hu

/-- The interrupt only appends: what was in the queue is read first. -/
theorem rxQueue_prefix_usartRxVect (hu : u.RxIndexed) (b : Byte) :
    u.rxQueue <+: (usartRxVect b u).rxQueue := by
  obtain ⟨-, hq, -⟩ | ⟨-, n, he, -⟩ := usartRxVect_cases hu b
  · rw [hq]
    exact List.prefix_append _ _
  · rw [he]
    exact List.prefix_rfl

/-- The slot at the tail holds the oldest byte. -/
theorem rxQueue_head? (hu : u.RxIndexed) (h : u.rxQueue ≠ []) :
    u.rxQueue.head? = some (u.rxBuffer u.rxTail.toNat) := by
  have hne : u.rxHead.toNat ≠ u.rxTail.toNat := by
    intro he
    exact h ((rxQueue_eq_nil_iff hu).mpr (BitVec.eq_of_toNat_eq he))
  unfold UartRx.rxQueue
  rw [Ring.contents_pop hu.1 hu.2 hne]
  rfl

/-- **Moving the tail releases the oldest byte**, and it is the one that
was read. -/
theorem rxQueue_release (hu : u.RxIndexed) (h : u.rxQueue.head? = some b) :
    let u' := { u with rxTail := (u.rxTail + 1) &&& uartRxBufferMask }
    u.rxQueue = b :: u'.rxQueue ∧ u'.RxIndexed := by
  obtain ⟨rest, hq⟩ : ∃ rest, u.rxQueue = b :: rest := List.head?_eq_some_iff.mp h
  obtain ⟨-, -, hrest⟩ := Ring.contents_head_eq hu.1 hu.2 hq
  refine ⟨?_, hu.1, ?_⟩
  · rw [hq, ← hrest, ← toNat_rxNext hu.2]
    rfl
  · show ((u.rxTail + 1) &&& uartRxBufferMask).toNat < uartRxBufferSize
    rw [toNat_rxNext hu.2]
    exact Ring.next_lt hu.2

/-! ## Where a call stands -/

/-- `uart_read_byte` once `rx_head` is read. -/
def uartTestEmpty (head : Byte) : Prog UartRx (Option Byte) :=
  (Prog.read fun u : UartRx => u.rxTail).bind fun tail =>
    if head = tail then .ret none else uartTakeByte

/-- `uart_read_byte` once its local `tail` is read. -/
def uartFetchByte (tail : Byte) : Prog UartRx (Option Byte) :=
  (Prog.read fun u : UartRx => u.rxBuffer tail.toNat).bind fun byte =>
    (Prog.write fun u : UartRx => { u with rxTail := (tail + 1) &&& uartRxBufferMask }).bind
      fun _ => .ret (some byte)

/-- `uart_read_byte` once the byte is fetched. -/
def uartRelease (tail byte : Byte) : Prog UartRx (Option Byte) :=
  (Prog.write fun u : UartRx => { u with rxTail := (tail + 1) &&& uartRxBufferMask }).bind
    fun _ => .ret (some byte)

/-- **What a call in progress knows.** Once past the test it holds that the
queue is not empty, and after the fetch, which byte is first in it. -/
inductive RxReading (u : UartRx) : Prog UartRx (Option Byte) → Prop
  | start : RxReading u (uartReadByte false)
  | test {head : Byte} (h : head ≠ u.rxTail → u.rxQueue ≠ []) : RxReading u (uartTestEmpty head)
  | take (h : u.rxQueue ≠ []) : RxReading u uartTakeByte
  | fetch (h : u.rxQueue ≠ []) : RxReading u (uartFetchByte u.rxTail)
  | release {b : Byte} (h : u.rxQueue.head? = some b) : RxReading u (uartRelease u.rxTail b)

/-- A call at any of these stages has an access left. -/
theorem RxReading.result (h : RxReading u p) : p.result = none := by
  rcases h with _ | _ | _ | _ | _ <;> rfl

/-- **An interrupt between two accesses** leaves the call where it was: the
byte at the tail is not overwritten. -/
theorem RxReading.usartRxVect (hu : u.RxIndexed) (h : RxReading u p) :
    RxReading (usartRxVect b u) p := by
  obtain ⟨more, hq⟩ := rxQueue_prefix_usartRxVect hu b
  have hne : u.rxQueue ≠ [] → (SentryCell.usartRxVect b u).rxQueue ≠ [] := by
    intro h
    rw [← hq]
    exact List.append_ne_nil_of_left_ne_nil h _
  rcases h with _ | h | h | h | h
  · exact .start
  · exact .test fun hh => hne (h (by rwa [rxTail_usartRxVect] at hh))
  · exact .take (hne h)
  · have := RxReading.fetch (hne h)
    rwa [rxTail_usartRxVect] at this
  · rename_i first
    have hhead : (SentryCell.usartRxVect b u).rxQueue.head? = some first := by
      rw [← hq, List.head?_append, h]
      rfl
    have := RxReading.release hhead
    rwa [rxTail_usartRxVect] at this

/-- **One access of a call**: it reads on, finds the ring empty, or
releases the slot of the byte it returns. -/
theorem RxReading.next (hu : u.RxIndexed) (h : RxReading u p)
    (hn : p.next u = some (p', u')) :
    (u' = u ∧ (RxReading u p' ∨ p' = .ret none)) ∨
    (∃ b, u.rxQueue = b :: u'.rxQueue ∧ u'.RxIndexed ∧ u'.rxHead = u.rxHead ∧
      u'.rxOverflowCount = u.rxOverflowCount ∧ p' = .ret (some b)) := by
  rcases h with _ | h | h | h | h
  · cases (show some (uartTestEmpty u.rxHead, u) = some (p', u') from hn)
    refine .inl ⟨rfl, .inl (.test fun hne => ?_)⟩
    exact mt (rxQueue_eq_nil_iff hu).mp hne
  · rename_i head
    rw [uartTestEmpty, Prog.next_read_bind] at hn
    obtain ⟨rfl, rfl⟩ := Prod.mk.inj (Option.some.inj hn)
    refine .inl ⟨rfl, ?_⟩
    by_cases he : head = u.rxTail
    · exact .inr (if_pos he)
    · rw [if_neg he]
      exact .inl (.take (h he))
  · cases (show some (uartFetchByte u.rxTail, u) = some (p', u') from hn)
    exact .inl ⟨rfl, .inl (.fetch h)⟩
  · cases (show some (uartRelease u.rxTail (u.rxBuffer u.rxTail.toNat), u) = some (p', u')
      from hn)
    exact .inl ⟨rfl, .inl (.release (rxQueue_head? hu h))⟩
  · rename_i b
    rw [uartRelease, Prog.next_write_bind] at hn
    obtain ⟨rfl, rfl⟩ := Prod.mk.inj (Option.some.inj hn)
    obtain ⟨hq, hu'⟩ := rxQueue_release hu h
    exact .inr ⟨b, hq, hu', rfl, rfl, rfl⟩

/-- **The triple of `uart_read_byte`**, on a component of a larger state.
`P` holds until a slot is released, which leads to `H` of its byte. A call
that returns nothing has seen the ring empty: `E` is what `P` gives there,
and what the interrupt cannot undo. -/
theorem uartReadByte_triple {τ : Type} (L : Lens τ UartRx) {C : Contract τ} {P E : τ → Prop}
    {H : Byte → τ → Prop} (hindexed : ∀ t, P t → (L.get t).RxIndexed)
    (hrely : ∀ t t', C.rely t t' →
      L.get t' = L.get t ∨ ∃ b, L.get t' = SentryCell.usartRxVect b (L.get t))
    (hP : Stable C P) (hE : Stable C E) (hinv : ∀ t, P t → C.inv t) (hrefl : ∀ t, C.guar t t)
    (hempty : ∀ t, P t → (L.get t).rxQueue = [] → E t)
    (hrelease : ∀ t b u', P t → (L.get t).rxQueue = b :: u'.rxQueue → u'.RxIndexed →
      u'.rxHead = (L.get t).rxHead → u'.rxOverflowCount = (L.get t).rxOverflowCount →
      C.guar t (L.set u' t) ∧ H b (L.set u' t)) :
    Triple C P ((uartReadByte false).zoom L) fun o t =>
      match o with
      | none => P t ∧ E t
      | some b => H b t := by
  -- the interrupt keeps the tail, and only adds to the queue
  have htail : ∀ t t', C.rely t t' → (L.get t').rxTail = (L.get t).rxTail := by
    intro t t' hr
    obtain he | ⟨b, he⟩ := hrely t t' hr
    · rw [he]
    · rw [he, rxTail_usartRxVect]
  have hprefix : ∀ t t', P t → C.rely t t' → (L.get t).rxQueue <+: (L.get t').rxQueue := by
    intro t t' hp hr
    obtain he | ⟨b, he⟩ := hrely t t' hr
    · simp only [he, List.prefix_rfl]
    · rw [he]
      exact rxQueue_prefix_usartRxVect (hindexed t hp) b
  have hne : ∀ t t', P t → C.rely t t' → (L.get t).rxQueue ≠ [] → (L.get t').rxQueue ≠ [] := by
    intro t t' hp hr hq
    obtain ⟨more, hmore⟩ := hprefix t t' hp hr
    rw [← hmore]
    exact List.append_ne_nil_of_left_ne_nil hq more
  have hhead : ∀ t t' b, P t → C.rely t t' → (L.get t).rxQueue.head? = some b →
      (L.get t').rxQueue.head? = some b := by
    intro t t' b hp hr hq
    obtain ⟨more, hmore⟩ := hprefix t t' hp hr
    rw [← hmore, List.head?_append, hq]
    rfl
  simp only [uartReadByte, uartTakeByte, Prog.bind_eq, Bool.false_eq_true, if_false,
    Prog.zoom_bind, Prog.zoom_read]
  refine Triple.read_bind (B := fun head t => P t ∧
    (head ≠ (L.get t).rxTail → (L.get t).rxQueue ≠ []) ∧ (head = (L.get t).rxTail → E t))
    hP hinv hrefl ?_ fun head => ?_
  · intro t hp
    have hiff := rxQueue_eq_nil_iff (hindexed t hp)
    exact ⟨hp, mt hiff.mp, fun he => hempty t hp (hiff.mpr he)⟩
  refine Triple.read_bind (B := fun tail t => P t ∧
    (head ≠ tail → (L.get t).rxQueue ≠ []) ∧ (head = tail → E t)) ?_ (fun t h => hinv t h.1)
    hrefl (fun t h => h) fun tail => ?_
  · rintro t t' ⟨hp, hq, he⟩ hr
    rw [htail t t' hr]
    exact ⟨hP t t' hp hr, fun h => hne t t' hp hr (hq h), fun h => hE t t' (he h) hr⟩
  by_cases hht : head = tail
  · rw [if_pos hht]
    exact Triple.ret fun t h => ⟨h.1, h.2.2 hht⟩
  rw [if_neg hht]
  simp only [Prog.zoom_bind, Prog.zoom_read, Prog.zoom_write]
  refine Triple.read_bind (B := fun tail t => P t ∧ tail = (L.get t).rxTail ∧
    (L.get t).rxQueue ≠ []) ?_ (fun t h => hinv t h.1) hrefl
    (fun t h => ⟨h.1, rfl, h.2.1 hht⟩) fun tail => ?_
  · rintro t t' ⟨hp, hq, he⟩ hr
    exact ⟨hP t t' hp hr, fun h => hne t t' hp hr (hq h), fun h => hE t t' (he h) hr⟩
  refine Triple.read_bind (B := fun byte t => P t ∧ tail = (L.get t).rxTail ∧
    (L.get t).rxQueue.head? = some byte) ?_ (fun t h => hinv t h.1) hrefl ?_ fun byte => ?_
  · rintro t t' ⟨hp, ht, hq⟩ hr
    exact ⟨hP t t' hp hr, by rw [htail t t' hr, ht], hne t t' hp hr hq⟩
  · rintro t ⟨hp, rfl, hq⟩
    exact ⟨hp, rfl, rxQueue_head? (hindexed t hp) hq⟩
  refine Triple.write_bind (B := H byte) ?_ (fun t h => hinv t h.1) ?_
    (Triple.ret fun t h => h)
  · rintro t t' ⟨hp, ht, hq⟩ hr
    exact ⟨hP t t' hp hr, by rw [htail t t' hr, ht], hhead t t' byte hp hr hq⟩
  · rintro t ⟨hp, rfl, hq⟩
    obtain ⟨hqueue, hu'⟩ := rxQueue_release (hindexed t hp) hq
    exact hrelease t byte _ hp hqueue hu' rfl rfl

/-- A call starts by reading, unless its pointer is null. -/
theorem uartReadByte_cases (null : Bool) :
    uartReadByte null = .ret none ∨ ∀ u, RxReading u (uartReadByte null) := by
  rcases null with _ | _
  · exact .inr fun _ => .start
  · exact .inl rfl

end SentryCell
