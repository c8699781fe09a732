import SentryCell.Firmware.Reports
import SentryCell.Hal.UartRx
/-!
# The communication task, once

`communication_task` drains the receive ring into the parser and then
serves nine slots: the immediate response and the eight statuses.
`CommInvariant` is what an argument about it has to supply: an assertion
for each point between two accesses, and that each access leads from one
to the next. `communication_triple` is the argument about the task that
they all share.
-/

namespace SentryCell

open Foreground Word

/-- The slots in the order the task serves them. -/
def servedSlots : List Slot := none :: servedStatuses.map some

/-- Every slot is among those that a pass serves. -/
theorem mem_servedSlots (k : Slot) : k ∈ servedSlots := by
  rcases k with _ | k
  · exact List.mem_cons_self
  · rcases k <;> decide

section

variable {τ : Type}

/-- **The assertions of an argument about the task**: while the ring is
drained, with a byte in hand, once the ring was seen empty, and while the
slots of a list are still to be served, with the answer of one of them
enqueued or not. -/
structure CommInvariant (τ : Type) where
  drain : τ → Prop
  held : Byte → τ → Prop
  drained : τ → Prop
  serve : List Slot → τ → Prop
  published : Slot → List Slot → τ → Prop

variable {L : Lens τ Firmware} {C : Contract τ} {J : CommInvariant τ} {r : Readings}

/-- **What is known of a frame that answers a slot**: it is the response
that the slot holds, or the status with what it reports. Its overflow count
was read before, at a moment that met the same assertion. -/
def CommInvariant.Answering (J : CommInvariant τ) (L : Lens τ Firmware) (r : Readings)
    (todo : List Slot) : Slot → ProtocolFrame → τ → Prop
  | none, frame, t => (L.get t).protocol.slots.responsePending ≠ 0 ∧
      frame = (L.get t).protocol.slots.pendingFrame
  | some kind, frame, t => (L.get t).protocol.slots.requestPending kind ≠ 0 ∧
      ∃ t₀, J.serve (some kind :: todo) t₀ ∧
        frame = statusFrame kind ((L.get t).protocol.slots.sequence kind)
          (kind.reportWith (L.get t₀).uart.rx.rxOverflowCount (L.get t) r)

/-- Such a frame is one the slot may be answered by. -/
theorem CommInvariant.Answering.outgoing {k : Slot} {todo : List Slot} {frame : ProtocolFrame}
    {t : τ} (h : J.Answering L r todo k frame t) : Outgoing (L.get t).protocol.slots k frame := by
  rcases k with _ | kind
  · exact h
  · obtain ⟨hreq, t₀, -, hframe⟩ := h
    exact ⟨hreq, _, length_reportWith, hframe⟩

/-- It stays so while the slots, the counters and the records do. -/
theorem CommInvariant.Answering.congr {k : Slot} {todo : List Slot} {frame : ProtocolFrame}
    {t t' : τ} (h : J.Answering L r todo k frame t)
    (hp : (L.get t').protocol = (L.get t).protocol)
    (hk : KeepsReports (L.get t).profiler (L.get t').profiler) :
    J.Answering L r todo k frame t' := by
  rcases k with _ | kind
  · exact ⟨by rw [hp]; exact h.1, by rw [hp]; exact h.2⟩
  · obtain ⟨hreq, t₀, hserve, hframe⟩ := h
    refine ⟨by rwa [hp], t₀, hserve, ?_⟩
    rw [hframe, hp, reportWith_congr hp hk]

/-- **Each access of the task leads from one assertion to the next**, once
the timeout is checked. -/
structure CommInvariant.KeptOnTime (J : CommInvariant τ) (L : Lens τ Firmware) (C : Contract τ)
    (r : Readings) : Prop where
  guar_refl : ∀ t, C.guar t t
  protocol_rely : ∀ t t', C.rely t t' → (L.get t').protocol = (L.get t).protocol
  tx_rely : ∀ t t', C.rely t t' → (L.get t').uart.tx = (L.get t).uart.tx ∨
    (L.get t').uart.tx = usartUdreVect (L.get t).uart.tx
  rx_rely : ∀ t t', C.rely t t' → (L.get t').uart.rx = (L.get t).uart.rx ∨
    ∃ b, (L.get t').uart.rx = usartRxVect b (L.get t).uart.rx
  reports_rely : ∀ t t', C.rely t t' → KeepsReports (L.get t).profiler (L.get t').profiler
  stable_drain : Stable C J.drain
  stable_held : ∀ b, Stable C (J.held b)
  stable_drained : Stable C J.drained
  stable_serve : ∀ todo, Stable C (J.serve todo)
  stable_published : ∀ k todo, Stable C (J.published k todo)
  inv_drain : ∀ t, J.drain t → C.inv t
  inv_held : ∀ b t, J.held b t → C.inv t
  inv_serve : ∀ todo t, J.serve todo t → C.inv t
  inv_published : ∀ k todo t, J.published k todo t → C.inv t
  rxIndexed : ∀ t, J.drain t → (L.get t).uart.rx.RxIndexed
  txIndexed : ∀ todo t, J.serve todo t → (L.get t).uart.tx.TxIndexed
  receive : ∀ t b u, J.drain t → (L.get t).uart.rx.rxQueue = b :: u.rxQueue → u.RxIndexed →
    u.rxHead = (L.get t).uart.rx.rxHead →
    u.rxOverflowCount = (L.get t).uart.rx.rxOverflowCount →
    C.guar t (L.set (Firmware.rxLens.set u (L.get t)) t) ∧
      J.held b (L.set (Firmware.rxLens.set u (L.get t)) t)
  process : ∀ t b n, J.held b t →
    C.guar t (L.set ((L.get t).processByte b (r.byteMs n)) t) ∧
      J.drain (L.set ((L.get t).processByte b (r.byteMs n)) t)
  seen_empty : ∀ t, J.drain t → (L.get t).uart.rx.rxQueue = [] → J.drained t
  serve_all : ∀ t, J.drain t → J.drained t → J.serve servedSlots t
  block : Triple C
    (fun t => J.serve servedSlots t ∧ (L.get t).protocol.slots.watchdogBlockRequestPending ≠ 0)
    ((setSafeOutputs.zoom Firmware.controlLens).zoom L) fun _ => J.serve servedSlots
  scan : ∀ t p todo, J.serve todo t →
    C.guar t (L.set (Firmware.profilerLens.set p (L.get t)) t) ∧
      J.serve todo (L.set (Firmware.profilerLens.set p (L.get t)) t)
  skip : ∀ t k todo, J.serve (k :: todo) t → ¬ (L.get t).protocol.slots.full k →
    J.serve todo t
  noRoom : ∀ t k todo frame, J.serve (k :: todo) t → Outgoing (L.get t).protocol.slots k frame →
    (8 < frame.length.toNat ∨
      uartTxBufferSize ≤ (L.get t).uart.tx.txQueue.length + (6 + frame.length.toNat)) →
    J.serve todo t
  fill : ∀ t i b todo, J.serve todo t → ¬ (L.get t).uart.tx.Unsent i →
    let u := (L.get t).uart.tx
    let u' := { u with txBuffer := Function.update u.txBuffer i b }
    C.guar t (L.set (Firmware.txLens.set u' (L.get t)) t) ∧
      J.serve todo (L.set (Firmware.txLens.set u' (L.get t)) t)
  publish : ∀ t k todo frame (head : Byte), J.serve (k :: todo) t →
    J.Answering L r todo k frame t → frame.length.toNat ≤ 8 →
    head.toNat < uartTxBufferSize →
    let u := (L.get t).uart.tx
    let u' := { u with txHead := head }
    u'.txQueue = u.txQueue ++ encodedFrame frame →
    C.guar t (L.set (Firmware.txLens.set u' (L.get t)) t) ∧
      J.published k todo (L.set (Firmware.txLens.set u' (L.get t)) t)
  enable : ∀ t k todo ucsr0b, J.published k todo t → isSet ucsr0b udrie0 = true →
    (∀ i < 8, i ≠ udrie0 → isSet ucsr0b i = isSet (L.get t).uart.tx.ucsr0b i) →
    let u' := { (L.get t).uart.tx with ucsr0b := ucsr0b }
    C.guar t (L.set (Firmware.txLens.set u' (L.get t)) t) ∧
      J.published k todo (L.set (Firmware.txLens.set u' (L.get t)) t)
  clear : ∀ t k todo, J.published k todo t →
    C.guar t (L.set (Firmware.slotsLens.set ((L.get t).protocol.slots.sent k) (L.get t)) t) ∧
      J.serve todo (L.set (Firmware.slotsLens.set ((L.get t).protocol.slots.sent k) (L.get t)) t)

/-- And the check leads from the first assertion to itself, whatever the
time. -/
structure CommInvariant.Kept (J : CommInvariant τ) (L : Lens τ Firmware) (C : Contract τ)
    (r : Readings) : Prop extends J.KeptOnTime L C r where
  checkTimeout : ∀ t, J.drain t →
    C.guar t (L.set ((L.get t).checkTimeout r.nowMs) t) ∧
      J.drain (L.set ((L.get t).checkTimeout r.nowMs) t)

namespace CommInvariant.KeptOnTime

/-! ## Draining the ring -/

/-- **One turn of the receive loop**: a byte is processed, or the ring was
found empty and the loop ends. -/
theorem drainByte (h : J.KeptOnTime L C r) (n : ℕ) :
    Triple C J.drain ((SentryCell.drainByte r n).zoom L) fun o t =>
      match o with
      | none => J.drain t ∧ J.drained t
      | some _ => J.drain t := by
  simp only [SentryCell.drainByte, Prog.bind_eq, Prog.zoom_bind, Prog.zoom_zoom]
  have hread := uartReadByte_triple (L.comp Firmware.rxLens) (fun t ht => h.rxIndexed t ht)
    (fun t t' hr => h.rx_rely t t' hr) h.stable_drain h.stable_drained (fun t => h.inv_drain t)
    h.guar_refl (fun t => h.seen_empty t) (fun t b u => h.receive t b u)
  refine Triple.bind hread fun o => ?_
  rcases o with _ | b
  · exact Triple.ret fun t ht => ht
  · simp only [Prog.zoom_bind, Prog.zoom_write]
    exact Triple.write_bind (h.stable_held b) (fun t => h.inv_held b t)
      (fun t ht => h.process t b n ht) (Triple.ret fun t ht => ht)

/-- The loop ends once the ring was seen empty. -/
theorem drainLoop (h : J.KeptOnTime L C r) :
    Triple C J.drain ((Prog.loop (SentryCell.drainByte r) 0 (.ret ())).zoom L)
      fun _ => J.serve servedSlots := by
  refine Triple.loop (I := fun _ => J.drain) (E := J.serve servedSlots)
    (fun _ => h.stable_drain) (fun _ t => h.inv_drain t) h.guar_refl (fun n => ?_)
    (Triple.ret fun t ht => ht)
  refine (h.drainByte n).conseq (fun t ht => ht) fun o t ho => ?_
  rcases o with _ | m
  · exact h.serve_all t ho.1 ho.2
  · exact ho

/-- A requested block is never left again. -/
theorem serveBlock (h : J.KeptOnTime L C r) :
    Triple C (J.serve servedSlots) (SentryCell.serveBlock.zoom L)
      fun _ => J.serve servedSlots := by
  simp only [SentryCell.serveBlock, Prog.bind_eq, Prog.zoom_bind, Prog.zoom_read]
  refine Triple.read_bind (B := fun requested t => J.serve servedSlots t ∧
    (L.get t).protocol.slots.watchdogBlockRequestPending = requested)
    (h.stable_serve _) (fun t => h.inv_serve _ t) h.guar_refl (fun t ht => ⟨ht, rfl⟩)
    fun requested => ?_
  by_cases hreq : requested ≠ 0
  · rw [if_pos hreq, Prog.zoom_bind]
    refine Triple.bind (h.block.conseq ?_ fun _ t ht => ht) fun _ => ?_
    · rintro t ⟨ht, rfl⟩
      exact ⟨ht, hreq⟩
    · exact Triple.forever (h.stable_serve _) (fun t => h.inv_serve _ t) h.guar_refl
  · rw [if_neg hreq]
    exact Triple.ret fun t ht => ht.1

/-! ## Serving a slot -/

/-- What `protocol_send_frame` does with an answer of slot `k`. -/
theorem send (h : J.KeptOnTime L C r) (k : Slot) (todo : List Slot) (frame : ProtocolFrame) :
    Triple C (fun t => J.serve (k :: todo) t ∧ J.Answering L r todo k frame t)
      (((protocolSendFrame frame).zoom Firmware.txLens).zoom L)
      fun sent t => (sent = 0 ∧ J.serve todo t) ∨ (sent = 1 ∧ J.published k todo t) := by
  by_cases hlen : frame.length.toNat ≤ 8
  swap
  · have hgt : frame.length > protocolMaxPayload :=
      length_gt_maxPayload.mpr (Nat.lt_of_not_le hlen)
    rw [protocolSendFrame, dif_pos hgt]
    refine Triple.ret fun t ht => .inl ⟨rfl, h.noRoom t k todo frame ht.1 ht.2.outgoing (.inl ?_)⟩
    exact Nat.lt_of_not_le hlen
  obtain ⟨a, hsend, hdata, hbytes, hsize, hne⟩ := protocolSendFrame_of_le hlen
  rw [hsend, Prog.zoom_zoom]
  have hout : Stable C (J.Answering L r todo k frame) := fun t t' ha hr =>
    ha.congr (h.protocol_rely t t' hr) (h.reports_rely t t' hr)
  refine (uartTxWrite_triple (L.comp Firmware.txLens) a
    (P := fun t => J.serve (k :: todo) t ∧ J.Answering L r todo k frame t)
    (fun t ht => h.txIndexed _ t ht.1) (fun t t' hr => h.tx_rely t t' hr)
    ((h.stable_serve _).and hout) (h.stable_published k todo) (fun t ht => h.inv_serve _ t ht.1)
    (fun t => h.inv_published k todo t) h.guar_refl ?_ ?_ ?_).conseq (fun t ht => ht) ?_
  · rintro t i b ⟨ht, ho⟩ hi
    obtain ⟨hg, ht'⟩ := h.fill t i b _ ht hi
    -- only the transmitter is written
    let u' := { (L.get t).uart.tx with
      txBuffer := Function.update (L.get t).uart.tx.txBuffer i b }
    have hsame := L.get_set (Firmware.txLens.set u' (L.get t)) t
    have hprotocol := congrArg Firmware.protocol hsame
    have hprofiler := congrArg Firmware.profiler hsame
    exact ⟨hg, ht', ho.congr hprotocol (.of_eq hprofiler)⟩
  · rintro t head ⟨ht, ho⟩ hlt hq
    rw [hbytes] at hq
    exact h.publish t k todo frame head ht ho hlen hlt hq
  · intro t ucsr0b ht hset hkeep
    exact h.enable t k todo ucsr0b ht hset hkeep
  · rintro sent t (⟨rfl, ⟨ht, ho⟩, hnone | hfull⟩ | ⟨rfl, ⟨h0, -⟩ | ⟨-, ht⟩⟩)
    · rw [hdata] at hnone
      cases hnone
    · rw [hsize] at hfull
      exact .inl ⟨rfl, h.noRoom t k todo frame ht ho.outgoing (.inr hfull)⟩
    · exact absurd h0 hne
    · exact .inr ⟨rfl, ht⟩

/-- The flag of a slot is cleared once its answer is enqueued. -/
theorem clearSlot (h : J.KeptOnTime L C r) (k : Slot) (todo : List Slot) :
    Triple C (J.published k todo)
      (((Prog.write fun s : Slots => s.sent k).zoom Firmware.slotsLens).zoom L)
      fun _ => J.serve todo := by
  simp only [Prog.zoom_write]
  exact Triple.write (h.stable_published k todo) (fun t => h.inv_published k todo t)
    fun t ht => h.clear t k todo ht

/-- **The response slot is served first**, and is clear afterwards or stays
for another pass. -/
theorem serveResponse (h : J.KeptOnTime L C r) {todo : List Slot} :
    Triple C (J.serve (none :: todo)) (SentryCell.serveResponse.zoom L)
      fun _ => J.serve todo := by
  simp only [SentryCell.serveResponse, Prog.bind_eq, Prog.zoom_bind, Prog.zoom_read]
  refine Triple.read_bind (B := fun response t => J.serve (none :: todo) t ∧
    protocolGetResponse (L.get t).protocol.slots = response) (h.stable_serve _)
    (fun t => h.inv_serve _ t) h.guar_refl (fun t ht => ⟨ht, rfl⟩) fun response => ?_
  rcases response with _ | frame
  · refine Triple.ret fun t ht => h.skip t none todo ht.1 ?_
    have hnone := ht.2
    unfold protocolGetResponse at hnone
    split at hnone
    · rename_i h0
      exact not_not.mpr h0
    · cases hnone
  · simp only [Prog.zoom_bind]
    refine Triple.bind ((h.send none todo frame).conseq ?_ fun _ _ hs => hs) fun sent => ?_
    · rintro t ⟨ht, hsome⟩
      refine ⟨ht, ?_⟩
      unfold protocolGetResponse at hsome
      split at hsome
      · cases hsome
      · rename_i hne
        exact ⟨hne, (Option.some.inj hsome).symm⟩
    · by_cases hsent : sent ≠ 0
      · rw [if_pos hsent]
        refine (h.clearSlot none todo).conseq ?_ fun _ _ ht => ht
        rintro t (⟨h0, -⟩ | ⟨-, ht⟩)
        · exact absurd h0 hsent
        · exact ht
      · rw [if_neg hsent]
        refine Triple.ret ?_
        rintro t (⟨-, ht⟩ | ⟨h1, -⟩)
        · exact ht
        · exact absurd (h1 ▸ (by decide : (1 : Byte) ≠ 0)) hsent

/-! ## Collecting a status -/

/-- **What is known while a status is collected**: it is still requested,
and `F` holds of what was read so far. -/
def Reading (J : CommInvariant τ) (L : Lens τ Firmware) (kind : StatusKind) (todo : List Slot)
    (sequence : Byte) (F : Firmware → Prop) (t : τ) : Prop :=
  J.serve (some kind :: todo) t ∧
    protocolStatusRequested kind (L.get t).protocol.slots = some sequence ∧ F (L.get t)

/-- A fact about the counters and the records. -/
def OfRecords (F : Firmware → Prop) : Prop :=
  ∀ s s', s'.protocol = s.protocol → KeepsReports s.profiler s'.profiler → F s → F s'

variable {kind : StatusKind} {todo : List Slot} {sequence : Byte} {F : Firmware → Prop}

/-- What was read of the records stays true while the status is collected, for
the interrupts leave the records alone. -/
theorem stable_reading (h : J.KeptOnTime L C r) (hF : OfRecords F) :
    Stable C (Reading J L kind todo sequence F) := by
  rintro t t' ⟨hserve, hreq, ht⟩ hr
  have hp := h.protocol_rely t t' hr
  exact ⟨h.stable_serve _ t t' hserve hr, by rwa [hp], hF _ _ hp (h.reports_rely t t' hr) ht⟩

/-- **A status is sent** with the payload that was collected. -/
theorem sendStatus (h : J.KeptOnTime L C r) {payload : List Byte}
    (hpayload : ∀ t, Reading J L kind todo sequence F t → ∃ t₀, J.serve (some kind :: todo) t₀ ∧
      payload = kind.reportWith (L.get t₀).uart.rx.rxOverflowCount (L.get t) r) :
    Triple C (Reading J L kind todo sequence F)
      ((protocolSendStatus kind sequence payload).zoom L) fun _ => J.serve todo := by
  simp only [protocolSendStatus, Prog.bind_eq, Prog.zoom_bind]
  refine Triple.bind ((h.send (some kind) todo
    (statusFrame kind sequence payload)).conseq ?_ fun _ _ hs => hs)
    fun sent => ?_
  · intro t ht
    obtain ⟨t₀, hserve, hreport⟩ := hpayload t ht
    obtain ⟨hnow, hsome, -⟩ := ht
    refine ⟨hnow, ?_⟩
    unfold protocolStatusRequested at hsome
    split at hsome
    · cases hsome
    · rename_i hne
      exact ⟨hne, t₀, hserve, by rw [hreport, Option.some.inj hsome]⟩
  · by_cases hsent : sent = 0
    · rw [if_pos hsent]
      refine Triple.ret ?_
      rintro t (⟨-, ht⟩ | ⟨h1, -⟩)
      · exact ht
      · rw [hsent] at h1
        exact absurd h1 (by decide)
    · rw [if_neg hsent, Prog.zoom_bind]
      refine Triple.bind ((h.clearSlot (some kind) todo).conseq ?_ fun _ _ ht => ht)
        fun _ => Triple.ret fun t ht => ht
      rintro t (⟨h0, -⟩ | ⟨-, ht⟩)
      · exact absurd h0 hsent
      · exact ht

/-- **A value is read** for a status that is requested, and `F'` is what is
known once it was. -/
theorem read_bind (h : J.KeptOnTime L C r) {β : Type} {f : Firmware → β}
    {g : β → Prog Firmware Byte} (F' : β → Firmware → Prop) (hF : OfRecords F)
    (hread : ∀ t, Reading J L kind todo sequence F t → F' (f (L.get t)) (L.get t))
    (hg : ∀ v, Triple C (Reading J L kind todo sequence (F' v)) ((g v).zoom L)
      fun _ => J.serve todo) :
    Triple C (Reading J L kind todo sequence F) (((Prog.read f).bind g).zoom L)
      fun _ => J.serve todo := by
  simp only [Prog.zoom_bind, Prog.zoom_read]
  exact Triple.read_bind (h.stable_reading hF) (fun t ht => h.inv_serve _ t ht.1)
    h.guar_refl (fun t ht => ⟨ht.1, ht.2.1, hread t ht⟩) hg

/-- A value of each task is read, and they are sent as one payload. -/
theorem readTaskWords (h : J.KeptOnTime L C r) {value : Byte → Profiler → Word16}
    (hvalue : ∀ p p' i, KeepsReports p p' → value i p' = value i p)
    (hreport : ∀ overflow s,
      kind.reportWith overflow s r = taskReport fun i => value i s.profiler) :
    Triple C (Reading J L kind todo sequence fun _ => True)
      ((SentryCell.readTaskWords value fun a b c d =>
        protocolSendStatus kind sequence (taskWords a b c d)).zoom L) fun _ => J.serve todo := by
  have hkept : ∀ (i : Byte) (v : Word16), OfRecords fun s => value i s.profiler = v :=
    fun i v s s' _ hk hs => (hvalue _ _ i hk).trans hs
  have hand : ∀ {F G : Firmware → Prop}, OfRecords F → OfRecords G →
      OfRecords fun s => F s ∧ G s :=
    fun hF hG s s' hp hk hs => ⟨hF s s' hp hk hs.1, hG s s' hp hk hs.2⟩
  refine h.read_bind (fun a s => value timingTaskActuator s.profiler = a)
    (fun _ _ _ _ hs => hs) (fun _ _ => rfl) fun a => ?_
  refine h.read_bind (fun b s => value timingTaskActuator s.profiler = a ∧
    value timingTaskControl s.profiler = b) (hkept _ a) (fun t ht => ⟨ht.2.2, rfl⟩) fun b => ?_
  refine h.read_bind (fun c s => (value timingTaskActuator s.profiler = a ∧
    value timingTaskControl s.profiler = b) ∧ value timingTaskSensorSafety s.profiler = c)
    (hand (hkept _ a) (hkept _ b)) (fun t ht => ⟨ht.2.2, rfl⟩) fun c => ?_
  refine h.read_bind (fun d s => ((value timingTaskActuator s.profiler = a ∧
    value timingTaskControl s.profiler = b) ∧ value timingTaskSensorSafety s.profiler = c) ∧
    value timingTaskCommunication s.profiler = d)
    (hand (hand (hkept _ a) (hkept _ b)) (hkept _ c)) (fun t ht => ⟨ht.2.2, rfl⟩) fun d => ?_
  refine h.sendStatus fun t ht => ⟨t, ht.1, ?_⟩
  obtain ⟨⟨⟨ha, hb⟩, hc⟩, hd⟩ := ht.2.2
  rw [hreport, taskReport, ha, hb, hc, hd]

/-- **A status is collected**: what is sent is what is reported, whichever
interrupts come between the reads. -/
theorem collectStatus (h : J.KeptOnTime L C r) :
    Triple C (Reading J L kind todo sequence fun _ => True)
      ((SentryCell.collectStatus r sequence kind).zoom L) fun _ => J.serve todo := by
  have htrue : OfRecords fun _ => True := fun _ _ _ _ hs => hs
  rcases kind with _ | _ | _ | _ | _ | _ | _ | _
  · -- the overflow count may rise after it was read, the other two cannot
    refine h.read_bind (fun overflow _ => ∃ t₀, J.serve (some .commStatus :: todo) t₀ ∧
      (L.get t₀).uart.rx.rxOverflowCount = overflow) htrue (fun t ht => ⟨t, ht.1, rfl⟩)
      fun overflow => ?_
    refine h.read_bind (fun timeouts s => (∃ t₀, J.serve (some .commStatus :: todo) t₀ ∧
      (L.get t₀).uart.rx.rxOverflowCount = overflow) ∧ s.protocol.parserTimeoutCount = timeouts)
      (fun _ _ _ _ hs => hs) (fun t ht => ⟨ht.2.2, rfl⟩) fun timeouts => ?_
    refine h.read_bind (fun errors s => ((∃ t₀, J.serve (some .commStatus :: todo) t₀ ∧
      (L.get t₀).uart.rx.rxOverflowCount = overflow) ∧
        s.protocol.parserTimeoutCount = timeouts) ∧ s.protocol.crcErrorCount = errors)
      (fun _ _ hp _ hs => ⟨hs.1, by rw [hp]; exact hs.2⟩) (fun t ht => ⟨ht.2.2, rfl⟩)
      fun errors => ?_
    refine h.sendStatus fun t ht => ?_
    obtain ⟨⟨⟨t₀, hserve, rfl⟩, rfl⟩, rfl⟩ := ht.2.2
    exact ⟨t₀, hserve, rfl⟩
  · have hvalue : ∀ p p' : Profiler, ∀ i, KeepsReports p p' →
        timingProfilerGetMaxTicks i p'.timing = timingProfilerGetMaxTicks i p.timing :=
      fun p p' i hk => by rw [hk.timing]
    exact h.readTaskWords hvalue fun _ _ => rfl
  · have hvalue : ∀ p p' : Profiler, ∀ i, KeepsReports p p' →
        timingProfilerGetMaxJitterMs i p'.timing = timingProfilerGetMaxJitterMs i p.timing :=
      fun p p' i hk => by rw [hk.timing]
    exact h.readTaskWords hvalue fun _ _ => rfl
  · -- the scan writes the watermark before the three values are read
    simp only [SentryCell.collectStatus, Prog.bind_eq, Prog.zoom_bind, Prog.zoom_write]
    let scanned (s : Firmware) : Prop :=
      memoryProfilerGetMinFreeBytes r.sram s.profiler.memory = s.profiler.memory
    have hscanned : OfRecords scanned := fun s s' _ hk hs => by
      show memoryProfilerGetMinFreeBytes r.sram s'.profiler.memory = s'.profiler.memory
      rw [hk.memory]
      exact hs
    refine Triple.write_bind (B := Reading J L .runtimeMemoryStatus todo sequence scanned)
      (h.stable_reading htrue) (fun t ht => h.inv_serve _ t ht.1) ?_ ?_
    · rintro t ⟨ht, hs, -⟩
      obtain ⟨hg, ht'⟩ := h.scan t
        { (L.get t).profiler with
          memory := memoryProfilerGetMinFreeBytes r.sram (L.get t).profiler.memory } _ ht
      refine ⟨hg, ht', ?_, ?_⟩
      · rw [Lens.get_set]
        exact hs
      · rw [Lens.get_set]
        exact getMinFreeBytes_idem r.sram _
    · simp only [← Prog.zoom_bind]
      refine h.read_bind (fun free s => scanned s ∧ s.profiler.memory.minFreeBytes = free)
        hscanned (fun t ht => ⟨ht.2.2, rfl⟩) fun free => ?_
      refine h.read_bind (fun painted s => (scanned s ∧ s.profiler.memory.minFreeBytes = free) ∧
        s.profiler.memory.paintedBytes = painted)
        (fun s s' hp hk hs => ⟨hscanned s s' hp hk hs.1, by rw [hk.memory]; exact hs.2⟩)
        (fun t ht => ⟨ht.2.2, rfl⟩) fun painted => ?_
      refine h.read_bind (fun used s => ((scanned s ∧ s.profiler.memory.minFreeBytes = free) ∧
        s.profiler.memory.paintedBytes = painted) ∧
          memoryProfilerGetUsedPaintedBytes s.profiler.memory = used)
        (fun s s' hp hk hs => ⟨⟨hscanned s s' hp hk hs.1.1, by rw [hk.memory]; exact hs.1.2⟩,
          by rw [hk.memory]; exact hs.2⟩)
        (fun t ht => ⟨ht.2.2, rfl⟩) fun used => ?_
      refine h.sendStatus fun t ht => ⟨t, ht.1, ?_⟩
      obtain ⟨⟨⟨hs, rfl⟩, rfl⟩, rfl⟩ := ht.2.2
      have hs' : memoryProfilerGetMinFreeBytes r.sram (L.get t).profiler.memory =
          (L.get t).profiler.memory := hs
      simp only [StatusKind.reportWith, hs']
  · refine h.read_bind (fun busy s => s.profiler.runtime.busyTicks = busy) htrue
      (fun _ _ => rfl) fun busy => ?_
    refine h.read_bind (fun elapsed s => s.profiler.runtime.busyTicks = busy ∧
      runtimeProfilerGetElapsedMs r.loadMs s.profiler.runtime = elapsed)
      (fun s s' _ hk hs => by rw [hk.runtime]; exact hs) (fun t ht => ⟨ht.2.2, rfl⟩)
      fun elapsed => ?_
    refine h.sendStatus fun t ht => ⟨t, ht.1, ?_⟩
    obtain ⟨rfl, rfl⟩ := ht.2.2
    rfl
  · have hvalue : ∀ p p' : Profiler, ∀ i, KeepsReports p p' →
        runtimeProfilerGetOverrunCount i p'.runtime =
          runtimeProfilerGetOverrunCount i p.runtime :=
      fun p p' i hk => by rw [hk.runtime]
    exact h.readTaskWords hvalue fun _ _ => rfl
  · refine h.read_bind (fun cause s => s.profiler.watchdog.resetCause = cause) htrue
      (fun _ _ => rfl) fun cause => ?_
    refine h.sendStatus fun t ht => ⟨t, ht.1, ?_⟩
    obtain rfl := ht.2.2
    rfl
  · refine h.read_bind (fun detected s =>
      watchdogPreviousTimeoutDetected s.profiler.watchdog = detected) htrue
      (fun _ _ => rfl) fun detected => ?_
    refine h.sendStatus fun t ht => ⟨t, ht.1, ?_⟩
    obtain rfl := ht.2.2
    show [if (if _ then (1 : Byte) else 0) ≠ 0 then (1 : Byte) else 0] = [if _ then 1 else 0]
    split <;> rfl

/-- **One request is served**: if it is there, its status is collected and
offered to the transmitter. -/
theorem serveStatus (h : J.KeptOnTime L C r) {kind : StatusKind} {todo : List Slot} :
    Triple C (J.serve (some kind :: todo)) ((SentryCell.serveStatus r kind).zoom L)
      fun _ => J.serve todo := by
  simp only [SentryCell.serveStatus, Prog.bind_eq, Prog.zoom_bind, Prog.zoom_read]
  refine Triple.read_bind (B := fun sequence t => J.serve (some kind :: todo) t ∧
    protocolStatusRequested kind (L.get t).protocol.slots = sequence) (h.stable_serve _)
    (fun t => h.inv_serve _ t) h.guar_refl (fun t ht => ⟨ht, rfl⟩) fun sequence => ?_
  rcases sequence with _ | sequence
  · refine Triple.ret fun t ht => h.skip t (some kind) todo ht.1 ?_
    have hnone := ht.2
    unfold protocolStatusRequested at hnone
    split at hnone
    · rename_i h0
      exact not_not.mpr h0
    · cases hnone
  · simp only [Prog.zoom_bind]
    refine Triple.bind (h.collectStatus.conseq ?_ fun _ _ ht => ht) fun _ =>
      Triple.ret fun t ht => ht
    exact fun t ht => ⟨ht.1, ht.2, trivial⟩

/-- **All requests are served**, in their order: the induction is on the kinds
that are left. -/
theorem serveStatuses (h : J.KeptOnTime L C r) (kinds : List StatusKind) :
    Triple C (J.serve (kinds.map some)) ((SentryCell.serveStatuses r kinds).zoom L)
      fun _ => J.serve [] := by
  induction kinds with
  | nil => exact Triple.ret fun t ht => ht
  | cons kind kinds ih =>
    simp only [SentryCell.serveStatuses, Prog.bind_eq, Prog.zoom_bind, List.map_cons]
    exact Triple.bind h.serveStatus fun _ => ih

end CommInvariant.KeptOnTime

/-- A pass that starts from where its check leads to the first assertion. -/
theorem communication_onTime_triple (h : J.KeptOnTime L C r) {P : τ → Prop} (hP : Stable C P)
    (hinv : ∀ t, P t → C.inv t)
    (hcheck : ∀ t, P t → C.guar t (L.set ((L.get t).checkTimeout r.nowMs) t) ∧
      J.drain (L.set ((L.get t).checkTimeout r.nowMs) t)) :
    Triple C P ((communication r).zoom L) fun _ => J.serve [] := by
  simp only [communication, Prog.bind_eq, Prog.zoom_bind, Prog.zoom_write]
  refine Triple.write_bind hP hinv hcheck ?_
  refine Triple.bind h.drainLoop fun _ => ?_
  refine Triple.bind h.serveBlock fun _ => ?_
  exact Triple.bind h.serveResponse fun _ => h.serveStatuses servedStatuses

/-- **The triple of `communication_task`**: what holds of the ring at first
holds of the served slots at the end. -/
theorem communication_triple (h : J.Kept L C r) :
    Triple C J.drain ((communication r).zoom L) fun _ => J.serve [] :=
  communication_onTime_triple h.toKeptOnTime h.stable_drain (fun t => h.inv_drain t)
    fun t => h.checkTimeout t

end

end SentryCell
