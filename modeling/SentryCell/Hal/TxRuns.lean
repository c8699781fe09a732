import SentryCell.Hal.UartTx
/-!
# The transmit path over whole runs

The machine whose foreground makes one call of `uart_tx_write` after
another and whose environment is `USART_UDRE_vect`, enabled by `UDRIE0`.
A history variable lists the calls that have performed their `tx_head`
update; `TxInv` relates it to the state, the log of results and the call
in progress, and every step keeps it.
-/

namespace SentryCell

open Foreground Word Machine

/-- One call of `uart_tx_write` after another, and the interrupt. -/
def txMachine : Machine UartTx TxArgs Byte Unit where
  task := uartTxWrite
  ready _ _ := true
  env _ u := if isSet u.ucsr0b udrie0 then some (usartUdreVect u) else none

abbrev TxConfig := Config UartTx TxArgs Byte
abbrev TxEvent := Event TxArgs Unit

/-- The machine after `uart_init`. -/
def txStart (u : Uart) : TxConfig := ⟨(uartInit u).tx, none, []⟩

/-- The call whose `tx_head` update a step is, if it is one. -/
def txHeadUpdate (c c' : TxConfig) : List TxArgs :=
  match c.running with
  | some (a, _) => if c'.state.txHead = c.state.txHead then [] else [a]
  | none => []

/-- The calls that perform their `tx_head` update in a run, in order. -/
def txPublished (c : TxConfig) (es : List TxEvent) : List TxArgs :=
  txMachine.history (fun _ c c' calls => calls ++ txHeadUpdate c c') c es []

/-- The non-empty calls that returned `1`, in order. -/
def txAccepted (fin : List (TxArgs × Byte)) : List TxArgs :=
  (fin.filter fun r => r.2 = 1 ∧ r.1.length ≠ 0).map Prod.fst

/-- The interrupt is enabled while there is something to send. -/
def UartTx.Enabled (u : UartTx) : Prop := u.txQueue ≠ [] → isSet u.ucsr0b udrie0 = true

variable {a : TxArgs} {r : Byte} {u u' : UartTx} {p p' : Prog UartTx Byte}
variable {c c' : TxConfig} {e : TxEvent} {es : List TxEvent}
variable {fin : List (TxArgs × Byte)} {sent : List Byte} {calls : List TxArgs}

/-- A call with nothing to write is not among the accepted. -/
theorem txAccepted_empty (h : a.length = 0) : txAccepted (fin ++ [(a, r)]) = txAccepted fin := by
  simp [txAccepted, h]

/-- A call that returned 0 adds nothing to what was accepted, as it enqueued
nothing. -/
theorem txAccepted_rejected : txAccepted (fin ++ [(a, 0)]) = txAccepted fin := by
  simp [txAccepted]

/-- A call with bytes that returned 1 is the last of those that were
accepted. -/
theorem txAccepted_accepted (h : a.length ≠ 0) :
    txAccepted (fin ++ [(a, 1)]) = txAccepted fin ++ [a] := by
  have hp : decide ((1 : Byte) = 1 ∧ a.length ≠ 0) = true := decide_eq_true ⟨rfl, h⟩
  unfold txAccepted
  rw [List.filter_append, List.map_append, List.filter_singleton, hp]
  rfl

/-! ## The invariant -/

/-- **Where the call in progress stands**, and which calls that makes the
published ones. -/
inductive TxStage (fin : List (TxArgs × Byte)) (a : TxArgs) (calls : List TxArgs)
    (u : UartTx) (p : Prog UartTx Byte) : Prop
  | before (h : TxReading a u p ∨ TxFilling a u p) (hc : calls = txAccepted fin)
      (he : u.Enabled)
  | after (h : TxPublished u p) (hl : a.length ≠ 0) (hc : calls = txAccepted fin ++ [a])
  | returned {r : Byte} (h : p = .ret r) (hc : calls = txAccepted (fin ++ [(a, r)]))
      (he : u.Enabled)

/-- **The invariant of the transmit path.** -/
structure TxInv (sent : List Byte) (calls : List TxArgs) (c : TxConfig) : Prop where
  indexed : c.state.TxIndexed
  stream : c.state.txStream = sent ++ calls.flatMap TxArgs.bytes
  idle : c.running = none → calls = txAccepted c.finished ∧ c.state.Enabled
  running : ∀ a p, c.running = some (a, p) →
    p.result = none ∧ TxStage c.finished a calls c.state p

/-- Where a call has returned, the calls that count are those that are
accepted, and the interrupt is enabled if there is something to send. -/
theorem TxStage.ret (h : TxStage fin a calls u (.ret r)) :
    calls = txAccepted (fin ++ [(a, r)]) ∧ u.Enabled := by
  rcases h with ⟨hr | hf, -, -⟩ | ⟨hp, -, -⟩ | ⟨h, hc, he⟩
  · exact absurd hr.result (by simp [Prog.result])
  · exact absurd hf.result (by simp [Prog.result])
  · exact absurd hp.result (by simp [Prog.result])
  · cases h
    exact ⟨hc, he⟩

/-- **Settling a call** keeps the invariant: a call that has returned is in
the log, one that has not is still at its stage. -/
theorem TxStage.settle (hu : u.TxIndexed)
    (hs : u.txStream = sent ++ calls.flatMap TxArgs.bytes) (h : TxStage fin a calls u p) :
    TxInv sent calls (settle u a p fin) := by
  obtain ⟨r, rfl, he⟩ | ⟨hp, he⟩ := settle_cases u a p fin
  · rw [he]
    refine ⟨hu, hs, fun _ => h.ret, ?_⟩
    rintro _ _ ⟨⟩
  · rw [he]
    refine ⟨hu, hs, ?_, ?_⟩
    · rintro ⟨⟩
    · rintro _ _ ⟨⟩
      exact ⟨hp, h⟩

/-- The interrupt disables itself only once the queue is empty. -/
theorem enabled_usartUdreVect (hu : u.TxIndexed) (h : u.Enabled) :
    (usartUdreVect u).Enabled := by
  obtain ⟨b, hq, -, he⟩ | ⟨hq, he⟩ := usartUdreVect_cases hu
  · intro _
    have hset := h (by rw [hq]; exact List.cons_ne_nil _ _)
    rw [he]
    exact hset
  · intro hne
    rw [he] at hne
    exact absurd hq hne

/-- **The interrupt leaves every stage where it is**: it moves the tail and
sends a byte, and touches neither the head nor the slots that a call is
filling. -/
theorem TxStage.usartUdreVect (hu : u.TxIndexed) (h : TxStage fin a calls u p) :
    TxStage fin a calls (usartUdreVect u) p := by
  rcases h with ⟨hr | hf, hc, he⟩ | ⟨hp, hl, hc⟩ | ⟨h, hc, he⟩
  · exact .before (.inl hr.usartUdreVect) hc (enabled_usartUdreVect hu he)
  · exact .before (.inr (hf.usartUdreVect hu)) hc (enabled_usartUdreVect hu he)
  · exact .after hp.usartUdreVect hl hc
  · exact .returned h hc (enabled_usartUdreVect hu he)

/-- A dispatch is a call about to read, or one that returns at once. -/
theorem txStage_start (he : u.Enabled) : TxStage fin a (txAccepted fin) u (uartTxWrite a) := by
  obtain ⟨hl, hp⟩ | ⟨-, -, hp⟩ | hr := uartTxWrite_cases a
  · exact .returned hp (txAccepted_empty hl).symm he
  · exact .returned hp txAccepted_rejected.symm he
  · exact .before (.inl (hr u)) rfl he

/-- **One access of the call in progress** leads to the next stage, and only
the one that moves the head makes it one of the calls that count. -/
theorem TxStage.next (hu : u.TxIndexed) (hs : u.txStream = sent ++ calls.flatMap TxArgs.bytes)
    (h : TxStage fin a calls u p) (hn : p.next u = some (p', u')) :
    u'.TxIndexed ∧
      ∃ new, new = (if u'.txHead = u.txHead then [] else [a]) ∧
        u'.txStream = sent ++ (calls ++ new).flatMap TxArgs.bytes ∧
        TxStage fin a (calls ++ new) u' p' := by
  rcases h with ⟨hr | hf, hc, he⟩ | ⟨hp, hl, hc⟩ | ⟨rfl, -, -⟩
  · obtain ⟨rfl, hr' | hf' | ⟨-, hp'⟩⟩ := hr.next hu hn
    · refine ⟨hu, [], by simp, by simpa using hs, ?_⟩
      exact .before (.inl hr') (by simpa using hc) he
    · refine ⟨hu, [], by simp, by simpa using hs, ?_⟩
      exact .before (.inr hf') (by simpa using hc) he
    · refine ⟨hu, [], by simp, by simpa using hs, ?_⟩
      exact .returned hp' (by rw [txAccepted_rejected]; simpa using hc) he
  · have hl := hf.length_ne_zero
    obtain ⟨i, b, rfl, hi, hf'⟩ | ⟨head, rfl, hne, hlt, hq, rfl⟩ := hf.next hu hn
    · have hqueue := txQueue_update (b := b) hi
      refine ⟨hu, [], by simp, ?_, ?_⟩
      · simp only [UartTx.txStream, hqueue]
        simpa [UartTx.txStream] using hs
      · refine .before (.inr hf') (by simpa using hc) ?_
        simpa [UartTx.Enabled, hqueue] using he
    · refine ⟨⟨hlt, hu.2⟩, [a], by simp [hne], ?_, ?_⟩
      · simp only [UartTx.txStream, hq, List.flatMap_append, List.flatMap_singleton]
        rw [← List.append_assoc, ← List.append_assoc]
        exact congrArg (· ++ a.bytes) hs
      · exact .after .enable hl (by rw [hc])
  · obtain ⟨rfl, hp'⟩ | ⟨ucsr, rfl, hset, -, rfl⟩ := hp.next hn
    · exact ⟨hu, [], by simp, by simpa using hs, .after hp' hl (by simpa using hc)⟩
    · refine ⟨hu, [], by simp, ?_, .returned rfl ?_ fun _ => hset⟩
      · rw [List.append_nil]
        exact hs
      · rw [txAccepted_accepted hl]
        simpa using hc
  · cases hn

/-- **Every step keeps the invariant**: what was sent and what is queued are
the bytes of the calls that count. -/
theorem TxInv.step (h : TxInv sent calls c) (hs : txMachine.step c e = some c') :
    TxInv sent (calls ++ txHeadUpdate c c') c' := by
  obtain ⟨a, -, hr, -, rfl⟩ | ⟨a, p, p', u', -, hr, hn, rfl⟩ | ⟨x, u', -, hx, rfl⟩ :=
    step_cases hs
  · obtain ⟨rfl, he⟩ := h.idle hr
    have hnew : txHeadUpdate c (settle c.state a (txMachine.task a) c.finished) = [] := by
      simp [txHeadUpdate, hr]
    rw [hnew, List.append_nil]
    exact (txStage_start he).settle h.indexed h.stream
  · obtain ⟨hu, new, hnew, hst, hstage⟩ := (h.running a p hr).2.next h.indexed h.stream hn
    have heq : txHeadUpdate c (settle u' a p' c.finished) = new := by
      simp [txHeadUpdate, hr, hnew]
    rw [heq]
    exact hstage.settle hu hst
  · obtain rfl : usartUdreVect c.state = u' := by
      simp only [txMachine, Option.ite_none_right_eq_some, Option.some.injEq] at hx
      exact hx.2
    have hnew : txHeadUpdate c { c with state := usartUdreVect c.state } = [] := by
      simp only [txHeadUpdate, txHead_usartUdreVect, if_true]
      split <;> rfl
    rw [hnew, List.append_nil]
    refine ⟨txIndexed_usartUdreVect h.indexed, ?_, ?_, ?_⟩
    · exact (txStream_usartUdreVect h.indexed).trans h.stream
    · intro hr
      exact ⟨(h.idle hr).1, enabled_usartUdreVect h.indexed (h.idle hr).2⟩
    · intro a p hr
      exact ⟨(h.running a p hr).1, (h.running a p hr).2.usartUdreVect h.indexed⟩

/-- At the start no call has been accepted, and nothing is enqueued behind
what was sent before. -/
theorem txInv_start (u : Uart) : TxInv u.tx.udr0 [] (txStart u) := by
  have hq : (txStart u).state.txQueue = [] := Ring.contents_self
  have h0 : (0 : Byte).toNat < uartTxBufferSize := by decide
  refine ⟨⟨h0, h0⟩, ?_, fun _ => ⟨rfl, ?_⟩, ?_⟩
  · unfold UartTx.txStream
    rw [hq]
    rfl
  · intro hne
    exact absurd hq hne
  · rintro _ _ ⟨⟩

/-- **The invariant holds along every run**, with the calls that have moved
the head in it. -/
theorem txInv_run (u : Uart) (h : txMachine.run (txStart u) es = some c) :
    TxInv u.tx.udr0 (txPublished (txStart u) es) c :=
  history_induction (P := TxInv u.tx.udr0) (fun _ _ _ _ hc hs => hc.step hs) (txInv_start u) h

/-- Over a run both indices of the transmit ring stay within its size. -/
theorem TxInv.run_indexed (h : TxInv sent calls c) (hr : txMachine.run c es = some c') :
    c'.state.TxIndexed :=
  (history_induction (P := TxInv sent) (g := calls) (fun _ _ _ _ hc hs => hc.step hs) h hr).indexed

/-! ## A call that finds room -/

/-- What is left of a call that found room: it will return `1`, or has. -/
def TxGranted (a : TxArgs) (fin : List (TxArgs × Byte)) (c : TxConfig) : Prop :=
  (c.state.TxIndexed ∧ c.finished = fin ∧ ∃ p, c.running = some (a, p) ∧
    ((∃ d, a.length ≠ 0 ∧ a.data = some d ∧ p = uartTxReserve d a.length c.state.txHead ∧
        c.state.txQueue.length + a.length.toNat < uartTxBufferSize) ∨
      TxFilling a c.state p ∨ TxPublished c.state p)) ∨
  fin ++ [(a, 1)] <+: c.finished

/-- A step does not take back the room that a call has found. -/
theorem TxGranted.step (h : TxGranted a fin c) (hs : txMachine.step c e = some c') :
    TxGranted a fin c' := by
  obtain ⟨hu, rfl, p, hr, hp⟩ | hdone := h
  · obtain ⟨a', -, hr', -⟩ | ⟨a', q, p', u', -, hr', hn, rfl⟩ | ⟨x, u', -, hx, rfl⟩ :=
      step_cases hs
    · rw [hr] at hr'
      cases hr'
    · obtain ⟨rfl, rfl⟩ : a = a' ∧ p = q := by simpa [hr] using hr'
      obtain ⟨d, hl, hd, rfl, hfit⟩ | hf | hpub := hp
      · obtain ⟨rfl, ⟨-, hf, -⟩ | ⟨hfull, -⟩⟩ := uartTxReserve_next hu hl hd hn
        · rw [settle_of_result_none hf.result]
          exact .inl ⟨hu, rfl, p', rfl, .inr (.inl hf)⟩
        · omega
      · obtain ⟨i, b, rfl, hi, hf'⟩ | ⟨head, rfl, -, hlt, -, rfl⟩ := hf.next hu hn
        · rw [settle_of_result_none hf'.result]
          exact .inl ⟨hu, rfl, p', rfl, .inr (.inl hf')⟩
        · exact .inl ⟨⟨hlt, hu.2⟩, rfl, _, rfl, .inr (.inr .enable)⟩
      · obtain ⟨rfl, hp'⟩ | ⟨ucsr, rfl, -, -, rfl⟩ := hpub.next hn
        · rw [settle_of_result_none hp'.result]
          exact .inl ⟨hu, rfl, p', rfl, .inr (.inr hp')⟩
        · exact .inr List.prefix_rfl
    · obtain rfl : usartUdreVect c.state = u' := by
        simp only [txMachine, Option.ite_none_right_eq_some, Option.some.injEq] at hx
        exact hx.2
      refine .inl ⟨txIndexed_usartUdreVect hu, rfl, p, hr, ?_⟩
      obtain ⟨d, hl, hd, rfl, hfit⟩ | hf | hpub := hp
      · have hq := txQueue_length_usartUdreVect_le hu
        exact .inl ⟨d, hl, hd, by rw [txHead_usartUdreVect],
          Nat.lt_of_le_of_lt (Nat.add_le_add_right hq _) hfit⟩
      · exact .inr (.inl (hf.usartUdreVect hu))
      · exact .inr (.inr hpub.usartUdreVect)
  · exact .inr (hdone.trans (finished_prefix_step hs))

/-- Nor over a run: once it found room, a call is never refused. -/
theorem TxGranted.run (h : TxGranted a fin c) (hr : txMachine.run c es = some c') :
    TxGranted a fin c' :=
  run_induction (P := TxGranted a fin) (fun _ _ _ hc hs => hc.step hs) h hr

/-- **A call that finds room succeeds**, once it is given its steps. -/
theorem TxGranted.finished {d : List Byte} (hu : c.state.TxIndexed) (hl : a.length ≠ 0)
    (hd : a.data = some d)
    (hrun : c.running = some (a, uartTxReserve d a.length c.state.txHead))
    (hfit : c.state.txQueue.length + a.length.toNat < uartTxBufferSize)
    (hr : txMachine.run c es = some c')
    (hes : a.length.toNat + 4 ≤ es.countP Event.isForeground) :
    c.finished ++ [(a, 1)] <+: c'.finished := by
  have hgrant : TxGranted a c.finished c :=
    .inl ⟨hu, rfl, _, hrun, .inl ⟨d, hl, hd, rfl, hfit⟩⟩
  obtain ⟨-, hfin, -⟩ | hdone := hgrant.run hr
  · have hends : EndsWithin (a.length.toNat + 4) (uartTxReserve d a.length c.state.txHead) := by
      rw [← a.readable d hd]
      exact endsWithin_uartTxReserve _ _
    obtain ⟨r, hpre⟩ := hends.finished hrun rfl hr hes
    have := hpre.length_le
    rw [hfin, List.length_append, List.length_singleton] at this
    omega
  · exact hdone

/-- The interrupt changes the transmitter and nothing else of a configuration:
neither the call in progress nor the log. -/
theorem txMachine_env (h : txMachine.step c (.env ()) = some c') :
    c' = { c with state := usartUdreVect c.state } := by
  simp only [step, txMachine, Option.map_eq_some_iff, Option.ite_none_right_eq_some,
    Option.some.injEq] at h
  obtain ⟨u', ⟨-, rfl⟩, rfl⟩ := h
  rfl

/-- **A call's second access is its read of `tx_tail`.** -/
theorem uartTxWrite_first {d : List Byte} (hl : a.length ≠ 0) (hd : a.data = some d)
    (hrun : c.running = some (a, uartTxWrite a)) (hes : ∀ e ∈ es, e.isDispatch = false)
    (hone : es.countP Event.isForeground = 1) (hr : txMachine.run c es = some c') :
    c'.finished = c.finished ∧
      c'.running = some (a, uartTxReserve d a.length c'.state.txHead) := by
  induction es generalizing c with
  | nil => cases hone
  | cons e es ih =>
    obtain ⟨c₁, hs, hrest⟩ := run_cons_eq_some.mp hr
    have htail : ∀ e ∈ es, e.isDispatch = false := fun e he =>
      hes e (List.mem_cons_of_mem _ he)
    rcases e with a' | _ | _
    · have := hes (.dispatch a') List.mem_cons_self
      cases this
    · -- the first access is made: only interrupts follow, and they keep `tx_head`
      rw [List.countP_cons_of_pos rfl] at hone
      have hnone : ∀ e ∈ es, e.isForeground = false := by
        have h0 : es.countP Event.isForeground = 0 := by omega
        simpa [List.countP_eq_zero] using h0
      have hc₁ : c₁ = ⟨c.state, some (a, uartTxReserve d a.length c.state.txHead), c.finished⟩ := by
        simp only [step, hrun, uartTxWrite_eq hl hd, Prog.next_read_bind, Option.map_some,
          Option.some.injEq] at hs
        exact hs.symm
      refine run_induction_mem (M := txMachine)
        (P := fun c' => c'.finished = c.finished ∧
          c'.running = some (a, uartTxReserve d a.length c'.state.txHead))
        (fun c₂ e c₃ he h₂ hs₂ => by
          rcases e with a' | _ | _
          · have := htail _ he
            cases this
          · have := hnone _ he
            cases this
          · rw [txMachine_env hs₂]
            simpa using h₂)
        ?_ hrest
      rw [hc₁]
      exact ⟨rfl, rfl⟩
    · rw [txMachine_env hs] at hrest
      exact ih (c := { c with state := usartUdreVect c.state }) hrun htail
        (by simpa [Event.isForeground] using hone) hrest

/-! ## A call that is turned away -/

/-- **A call that returns `0` has written nothing**: the same interrupts
without it lead to the same state. -/
theorem run_rejected_of_txReading (hu : c.state.TxIndexed) (h : TxReading a c.state p)
    (hrun : c.running = some (a, p)) (hes : ∀ e ∈ es, e.isDispatch = false)
    (hr : txMachine.run c es = some c') (hfin : c'.finished = c.finished ++ [(a, 0)]) :
    txMachine.run ⟨c.state, none, c.finished⟩ (es.filter Event.isEnv) =
      some ⟨c'.state, none, c.finished⟩ := by
  induction es generalizing c p with
  | nil =>
    obtain rfl : c = c' := by simpa using hr
    simp at hfin
  | cons e es ih =>
    obtain ⟨c₁, hs, hrest⟩ := run_cons_eq_some.mp hr
    have htail : ∀ e ∈ es, e.isDispatch = false := fun e he =>
      hes e (List.mem_cons_of_mem _ he)
    obtain ⟨a', -, hr', -⟩ | ⟨a', q, p', u', rfl, hr', hn, rfl⟩ | ⟨x, u', rfl, -, -⟩ :=
      step_cases hs
    · rw [hrun] at hr'
      cases hr'
    · obtain ⟨rfl, rfl⟩ : a = a' ∧ p = q := by simpa [hrun] using hr'
      obtain ⟨rfl, hread | hfill | ⟨-, rfl⟩⟩ := h.next hu hn
      · rw [settle_of_result_none hread.result] at hrest
        exact ih (c := ⟨c.state, some (a, p'), c.finished⟩) hu hread rfl htail hrest hfin
      · -- a call that fills returns `1`
        rw [settle_of_result_none hfill.result] at hrest
        have hgrant : TxGranted a c.finished ⟨c.state, some (a, p'), c.finished⟩ :=
          .inl ⟨hu, rfl, p', rfl, .inr (.inl hfill)⟩
        obtain ⟨-, hc', -⟩ | ⟨rest, hc'⟩ := hgrant.run hrest
        · rw [hfin] at hc'
          simp at hc'
        · rw [hfin, List.append_assoc] at hc'
          have := List.append_cancel_left hc'
          simp at this
      · exact (run_idle rfl htail hrest).2 c.finished
    · rw [txMachine_env hs] at hrest
      have henv := ih (c := { c with state := usartUdreVect c.state })
        (txIndexed_usartUdreVect hu) h.usartUdreVect hrun htail hrest hfin
      rw [List.filter_cons_of_pos rfl, run_cons_eq_some]
      refine ⟨⟨usartUdreVect c.state, none, c.finished⟩, ?_, henv⟩
      rw [txMachine_env hs] at hs
      simp only [step, Option.map_eq_some_iff] at hs ⊢
      obtain ⟨v, hv, he⟩ := hs
      obtain rfl : v = usartUdreVect c.state := congrArg Config.state he
      exact ⟨_, hv, rfl⟩

/-- A dispatch starts a call, where none is in progress. -/
theorem txMachine_dispatch (h : txMachine.step c (.dispatch a) = some c') :
    c.running = none ∧ c' = settle c.state a (uartTxWrite a) c.finished := by
  obtain ⟨a', he, hr, -, rfl⟩ | ⟨_, _, _, _, he, -⟩ | ⟨_, _, he, -⟩ := step_cases h
  · cases he
    exact ⟨hr, rfl⟩
  · cases he
  · cases he

/-- **A rejected call leaves no trace**: without its accesses the interrupts
of the run lead to the same state. -/
theorem txMachine_rejected (hu : c.state.TxIndexed) (hes : ∀ e ∈ es, e.isDispatch = false)
    (hr : txMachine.run c (.dispatch a :: es) = some c')
    (hfin : c'.finished = c.finished ++ [(a, 0)]) :
    txMachine.run c (es.filter Event.isEnv) = some ⟨c'.state, none, c.finished⟩ := by
  obtain ⟨c₁, hs, hrest⟩ := run_cons_eq_some.mp hr
  obtain ⟨hidle, rfl⟩ := txMachine_dispatch hs
  have hc : c = ⟨c.state, none, c.finished⟩ := by rw [← hidle]
  rw [hc]
  obtain ⟨-, hp⟩ | ⟨-, -, hp⟩ | hread := uartTxWrite_cases a
  · rw [hp, settle_ret] at hrest
    exact (run_idle rfl hes hrest).2 c.finished
  · rw [hp, settle_ret] at hrest
    exact (run_idle rfl hes hrest).2 c.finished
  · have hread := hread c.state
    rw [settle_of_result_none hread.result] at hrest
    exact run_rejected_of_txReading (p := uartTxWrite a) (c := ⟨c.state, some (a, uartTxWrite a), c.finished⟩)
      hu hread rfl hes hrest hfin

/-- After the first access of a call the head has been read, and nothing else
has happened to it. -/
theorem txMachine_reserve {d : List Byte} (hl : a.length ≠ 0) (hd : a.data = some d)
    (hes : ∀ e ∈ es, e.isDispatch = false) (hone : es.countP Event.isForeground = 1)
    (hr : txMachine.run c (.dispatch a :: es) = some c') :
    c'.finished = c.finished ∧
      c'.running = some (a, uartTxReserve d a.length c'.state.txHead) := by
  obtain ⟨c₁, hs, hrest⟩ := run_cons_eq_some.mp hr
  obtain ⟨-, rfl⟩ := txMachine_dispatch hs
  have hread : TxReading a c.state (uartTxWrite a) := .start hl hd
  rw [settle_of_result_none hread.result] at hrest
  exact uartTxWrite_first (c := ⟨c.state, some (a, uartTxWrite a), c.finished⟩) hl hd rfl hes
    hone hrest

/-! ## The transmit path -/

/-- No step writes a slot that holds an unsent byte. -/
theorem TxInv.unsent_kept (h : TxInv sent calls c) (hs : txMachine.step c e = some c') {i : ℕ}
    (hi : c.state.Unsent i) : c'.state.txBuffer i = c.state.txBuffer i := by
  obtain ⟨a, -, -, -, rfl⟩ | ⟨a, p, p', u', -, hr, hn, rfl⟩ | ⟨x, u', rfl, -, -⟩ :=
    step_cases hs
  · rw [settle_state]
  · rw [settle_state]
    rcases (h.running a p hr).2 with ⟨hr | hf, -, -⟩ | ⟨hp, -, -⟩ | ⟨rfl, -, -⟩
    · rw [(hr.next h.indexed hn).1]
    · obtain ⟨j, b, rfl, hj, -⟩ | ⟨head, rfl, -⟩ := hf.next h.indexed hn
      · have hij : i ≠ j := by
          rintro rfl
          exact hj hi
        exact Function.update_of_ne hij _ _
      · rfl
    · obtain ⟨rfl, -⟩ | ⟨ucsr, rfl, -⟩ := hp.next hn
      · rfl
      · rfl
    · cases hn
  · rw [txMachine_env hs, txBuffer_usartUdreVect]

/-- **The transmit path is an all-or-nothing FIFO that cannot stall.** In
every run from `uart_init`: what was written to `UDR0`, followed by the
queue, is the data of the calls that performed their `tx_head` update, in
order, and these are the non-empty calls that returned `1` and possibly
the one in progress; a call that returns `0` leaves the state to the
interrupts alone; no step writes an unsent slot; a call whose bytes fit
when it is about to read `tx_tail` returns `1` once it has made its
accesses; and between calls the interrupt is enabled while there is
something to send. -/
theorem uart_tx_fifo (u : Uart) (h : txMachine.run (txStart u) es = some c) :
    (c.state.udr0 ++ c.state.txQueue =
        u.tx.udr0 ++ (txPublished (txStart u) es).flatMap TxArgs.bytes ∧
      ∃ current, txPublished (txStart u) es = txAccepted c.finished ++ current ∧
        (current = [] ∨ ∃ a p, c.running = some (a, p) ∧ current = [a])) ∧
    (∀ a es' c', (∀ e ∈ es', e.isDispatch = false) →
      txMachine.run c (.dispatch a :: es') = some c' →
      c'.finished = c.finished ++ [(a, 0)] →
      txMachine.run c (es'.filter Event.isEnv) = some ⟨c'.state, none, c.finished⟩) ∧
    (∀ e c', txMachine.step c e = some c' →
      ∀ i, c.state.Unsent i → c'.state.txBuffer i = c.state.txBuffer i) ∧
    (∀ a d es₁ c₁ es₂ c₂, a.length ≠ 0 → a.data = some d →
      (∀ e ∈ es₁, e.isDispatch = false) → es₁.countP Event.isForeground = 1 →
      txMachine.run c (.dispatch a :: es₁) = some c₁ →
      txMachine.run c₁ es₂ = some c₂ →
      a.length.toNat + 4 ≤ es₂.countP Event.isForeground →
      c₁.running = some (a, uartTxReserve d a.length c₁.state.txHead) ∧
        (c₁.state.txQueue.length + a.length.toNat ≤ 63 →
          c.finished ++ [(a, 1)] <+: c₂.finished)) ∧
    (c.running = none → c.state.txQueue ≠ [] → isSet c.state.ucsr0b udrie0 = true) := by
  have hinv := txInv_run u h
  refine ⟨⟨hinv.stream, ?_⟩, ?_, fun e c' hs i hi => hinv.unsent_kept hs hi, ?_,
    fun hr => (hinv.idle hr).2⟩
  · rcases hr : c.running with _ | ⟨a, p⟩
    · exact ⟨[], by simpa using (hinv.idle hr).1, .inl rfl⟩
    · obtain ⟨hp, ⟨-, hc, -⟩ | ⟨-, -, hc⟩ | ⟨rfl, -, -⟩⟩ := hinv.running a p hr
      · exact ⟨[], by simpa using hc, .inl rfl⟩
      · exact ⟨[a], hc, .inr ⟨a, p, rfl, rfl⟩⟩
      · cases hp
  · intro a es' c' hes hr hfin
    exact txMachine_rejected hinv.indexed hes hr hfin
  · intro a d es₁ c₁ es₂ c₂ hl hd hes hone hr₁ hr₂ hn
    obtain ⟨hfin, hrun⟩ := txMachine_reserve hl hd hes hone hr₁
    refine ⟨hrun, fun hfit => ?_⟩
    rw [← hfin]
    have hu₁ := hinv.run_indexed hr₁
    have hroom : c₁.state.txQueue.length + a.length.toNat < uartTxBufferSize :=
      Nat.lt_succ_of_le hfit
    exact TxGranted.finished hu₁ hl hd hrun hroom hr₂ hn

/-- One byte enqueued by a call's six accesses, and sent by the interrupt
that its last access enables. -/
theorem uart_tx_fifo_one_byte :
    ∃ c, txMachine.run (txStart Uart.zeroed)
        [.dispatch (TxArgs.ofList [0xA5#8] (by decide)), .foreground, .foreground, .foreground,
          .foreground, .foreground, .foreground, .env ()] = some c ∧
      c.state.udr0 ++ c.state.txQueue = [0xA5#8] := by
  have hrun : txMachine.run (txStart Uart.zeroed)
      [.dispatch (TxArgs.ofList [0xA5#8] (by decide)), .foreground, .foreground, .foreground,
        .foreground, .foreground, .foreground, .env ()] = some _ := rfl
  exact ⟨_, hrun, (uart_tx_fifo Uart.zeroed hrun).1.1⟩

end SentryCell
