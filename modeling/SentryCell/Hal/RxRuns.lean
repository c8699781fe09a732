import SentryCell.Hal.UartRx
/-!
# The receive path over whole runs

The machine whose foreground makes one call of `uart_read_byte` after
another and whose environment delivers bytes. A history variable logs
each byte that arrives and whether 31 bytes were held when it did, counted
from the log and from what the calls have returned and never from the
ring. The ring then loses the bytes so marked and no other.
-/

namespace SentryCell

open Foreground Word Machine

/-- One call of `uart_read_byte` after another, and the interrupt. -/
def rxMachine : Machine UartRx Bool (Option Byte) Byte where
  task := uartReadByte
  ready _ _ := true
  env b u := some (usartRxVect b u)

abbrev RxConfig := Config UartRx Bool (Option Byte)
abbrev RxEvent := Event Bool Byte

/-- The machine after `uart_init`. -/
def rxStart (u : Uart) : RxConfig := ⟨(uartInit u).rx, none, []⟩

/-- The bytes that arrive in a run, in order. -/
def rxArrived (es : List RxEvent) : List Byte :=
  es.filterMap fun e => match e with
    | .env b => some b
    | _ => none

/-- The bytes the successful calls returned, in order. -/
def rxReturned (fin : List (Bool × Option Byte)) : List Byte := fin.filterMap Prod.snd

/-- The bytes a log marks as dropped, in order. -/
def rxRemoved (log : List (Byte × Bool)) : List Byte := (log.filter (·.2)).map Prod.fst

/-- The bytes a log does not mark, in order. -/
def rxKept (log : List (Byte × Bool)) : List Byte := (log.filter (!·.2)).map Prod.fst

/-- What a step adds to the log: a byte that arrives, marked where 31
bytes were held, kept before it and not yet returned by a call. -/
def rxRecord (e : RxEvent) (c : RxConfig) (log : List (Byte × Bool)) : List (Byte × Bool) :=
  match e with
  | .env b => log ++ [(b, (rxKept log).length - (rxReturned c.finished).length == 31)]
  | _ => log

/-- The log of a run. -/
def rxLog (c : RxConfig) (es : List RxEvent) : List (Byte × Bool) :=
  rxMachine.history (fun e c _ log => rxRecord e c log) c es []

variable {u u' : UartRx} {p p' : Prog UartRx (Option Byte)} {b : Byte} {null : Bool}
variable {c c' : RxConfig} {e : RxEvent} {es : List RxEvent}
variable {fin : List (Bool × Option Byte)} {log : List (Byte × Bool)}

/-- A call adds the byte that it returned, if any. -/
theorem rxReturned_snoc {r : Option Byte} :
    rxReturned (fin ++ [(null, r)]) = rxReturned fin ++ r.toList := by
  rcases r with _ | b
  · simp [rxReturned]
  · simp [rxReturned]

/-- A byte that is lost is not among those that are kept. -/
@[simp] theorem rxKept_dropped : rxKept (log ++ [(b, true)]) = rxKept log := by
  simp [rxKept]

/-- A byte that is kept is the last of them. -/
@[simp] theorem rxKept_kept : rxKept (log ++ [(b, false)]) = rxKept log ++ [b] := by
  simp [rxKept]

/-- A byte that is lost is the last of those removed. -/
@[simp] theorem rxRemoved_dropped : rxRemoved (log ++ [(b, true)]) = rxRemoved log ++ [b] := by
  simp [rxRemoved]

/-- A byte that is kept is not removed: only those that found the ring
full are. -/
@[simp] theorem rxRemoved_kept : rxRemoved (log ++ [(b, false)]) = rxRemoved log := by
  simp [rxRemoved]

/-- What holds of the ring once the calls have returned `got`. -/
structure RxHeld (log : List (Byte × Bool)) (got : List Byte) (u : UartRx) : Prop where
  indexed : u.RxIndexed
  queue : got ++ u.rxQueue = rxKept log
  overflow : u.rxOverflowCount.toNat = min 255 (rxRemoved log).length

/-- **The invariant of the receive path.** -/
structure RxInv (log : List (Byte × Bool)) (c : RxConfig) : Prop where
  held : RxHeld log (rxReturned c.finished) c.state
  running : ∀ null p, c.running = some (null, p) → RxReading c.state p

/-- What is held is the length of the queue. -/
theorem RxHeld.length {got : List Byte} (h : RxHeld log got u) :
    (rxKept log).length - got.length = u.rxQueue.length := by
  rw [← h.queue, List.length_append]
  omega

/-- **A byte that arrives** is queued, or marked and counted. -/
theorem RxHeld.arrive {got : List Byte} (h : RxHeld log got u) (b : Byte) :
    RxHeld (log ++ [(b, (rxKept log).length - got.length == 31)]) got (usartRxVect b u) := by
  have hu := rxIndexed_usartRxVect (b := b) h.indexed
  rw [h.length]
  obtain ⟨hlen, hq, he⟩ | ⟨hlen, n, he, hn⟩ := usartRxVect_cases h.indexed b
  · rw [beq_false_of_ne hlen]
    refine ⟨hu, ?_, ?_⟩
    · rw [hq, rxKept_kept, ← List.append_assoc, h.queue]
    · rw [he, rxRemoved_kept]
      exact h.overflow
  · rw [hlen, beq_self_eq_true]
    refine ⟨hu, ?_, ?_⟩
    · rw [he, rxKept_dropped]
      exact h.queue
    · rw [he, rxRemoved_dropped, List.length_append, List.length_singleton]
      have := h.overflow
      show n.toNat = _
      omega

/-- **Settling a call** records what it returned, and keeps the account of
what the ring holds. -/
theorem RxHeld.settle (h : RxHeld log (rxReturned fin) u)
    (hp : RxReading u p ∨ p = .ret none) : RxInv log (settle u null p fin) := by
  rcases hp with hp | rfl
  · rw [settle_of_result_none hp.result]
    refine ⟨h, ?_⟩
    rintro _ _ ⟨⟩
    exact hp
  · rw [settle_ret]
    refine ⟨?_, ?_⟩
    · rw [rxReturned_snoc]
      simpa using h
    · rintro _ _ ⟨⟩

/-- **Every step keeps the invariant**: a call takes the oldest byte, and an
interrupt appends its byte or logs its loss. -/
theorem RxInv.step (h : RxInv log c) (hs : rxMachine.step c e = some c') :
    RxInv (rxRecord e c log) c' := by
  obtain ⟨null, rfl, hr, -, rfl⟩ | ⟨null, p, p', u', rfl, hr, hn, rfl⟩ | ⟨b, u', rfl, hx, rfl⟩ :=
    step_cases hs
  · refine h.held.settle ?_
    rcases uartReadByte_cases null with hp | hp
    · exact .inr hp
    · exact .inl (hp c.state)
  · obtain ⟨rfl, hp⟩ | ⟨b, hq, hu, -, hover, rfl⟩ := (h.running null p hr).next h.held.indexed hn
    · exact h.held.settle hp
    · -- the slot is released by the access that ends the call
      rw [settle_ret]
      refine ⟨⟨hu, ?_, ?_⟩, ?_⟩
      · have hqueue := h.held.queue
        rw [hq] at hqueue
        rw [rxReturned_snoc, List.append_assoc]
        exact hqueue
      · show u'.rxOverflowCount.toNat = _
        rw [hover]
        exact h.held.overflow
      · rintro _ _ ⟨⟩
  · obtain rfl : usartRxVect b c.state = u' := Option.some.inj hx
    exact ⟨h.held.arrive b, fun null p hr => (h.running null p hr).usartRxVect h.held.indexed⟩

/-- At the start nothing has been received, and nothing has been returned or
dropped. -/
theorem rxInv_start (u : Uart) : RxInv [] (rxStart u) := by
  have h0 : (0 : Byte).toNat < uartRxBufferSize := by decide
  have hq : (rxStart u).state.rxQueue = [] := Ring.contents_self
  refine ⟨⟨⟨h0, h0⟩, ?_, rfl⟩, ?_⟩
  · rw [hq]
    rfl
  · rintro _ _ ⟨⟩

/-- **The invariant holds along every run**, with the log of what was received
in it. -/
theorem rxInv_run (u : Uart) (h : rxMachine.run (rxStart u) es = some c) :
    RxInv (rxLog (rxStart u) es) c :=
  history_induction (P := RxInv) (fun _ _ _ _ hc hs => hc.step hs) (rxInv_start u) h

/-- The log is of every byte that arrives, in order. -/
theorem map_fst_history (h : rxMachine.run c es = some c') :
    (rxMachine.history (fun e c _ log => rxRecord e c log) c es log).map Prod.fst =
      log.map Prod.fst ++ rxArrived es := by
  induction es generalizing c log with
  | nil => simp [history, rxArrived]
  | cons e es ih =>
    obtain ⟨c₁, hs, hrest⟩ := run_cons_eq_some.mp h
    simp only [history, hs]
    rw [ih hrest]
    rcases e with _ | _ | b
    · rfl
    · rfl
    · simp [rxRecord, rxArrived]

/-- **The receive ring loses only what it counts.** In every run from
`uart_init`, what the successful calls returned, followed by the queue, is
the received sequence without the bytes that arrived while 31 were held,
and `rx_overflow_count` is their number, up to 255. -/
theorem uart_rx_ring (u : Uart) (h : rxMachine.run (rxStart u) es = some c) :
    (rxLog (rxStart u) es).map Prod.fst = rxArrived es ∧
      rxReturned c.finished ++ c.state.rxQueue = rxKept (rxLog (rxStart u) es) ∧
      c.state.rxOverflowCount.toNat = min 255 (rxRemoved (rxLog (rxStart u) es)).length := by
  have hinv := rxInv_run u h
  exact ⟨map_fst_history h, hinv.held.queue, hinv.held.overflow⟩

/-- A byte that comes after the call has tested the ring waits for the
next call. -/
theorem uart_rx_ring_late_byte :
    ∃ c, rxMachine.run (rxStart Uart.zeroed)
        [.dispatch false, .foreground, .env 0xA5#8, .foreground] = some c ∧
      c.finished = [(false, none)] ∧ rxReturned c.finished ++ c.state.rxQueue = [0xA5#8] := by
  have hrun : rxMachine.run (rxStart Uart.zeroed)
      [.dispatch false, .foreground, .env 0xA5#8, .foreground] = some _ := rfl
  exact ⟨_, hrun, rfl, (uart_rx_ring Uart.zeroed hrun).2.1⟩

end SentryCell
