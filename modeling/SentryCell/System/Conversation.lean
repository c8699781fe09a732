import SentryCell.System.HostRequest
/-!
# The conversation of the firmware and a waiting host

`Phase` says where the transaction of a waiting host stands, and
`Conversation` what the line, the two rings, the parser and the slots then
hold: the bytes of one request, in their order and nowhere else, or the
request in one slot, or the bytes of its response. Every access of
`communication_task` and all that can come between two of them keeps it.
-/

namespace SentryCell

open Foreground Word Machine

/-! ## Where a transaction stands -/

/-- **The phase of a transaction.** A request is asked while its bytes are
under way, taken once it is handed over, and answered once its response is
enqueued. -/
inductive Phase where
  | free
  | asked (request : HostRequest)
  | taken (request : HostRequest) (frame : ProtocolFrame)
  | answered (request : HostRequest) (response : ProtocolFrame)

namespace Phase

/-- What the host waits for. -/
def awaiting : Phase → Option HostRequest
  | .free => none
  | .asked request => some request
  | .taken request _ => some request
  | .answered request _ => some request

/-- What is under way to the parser. -/
def line : Phase → List Byte
  | .asked request => request.bytes
  | _ => []

/-- What is under way to the host. -/
def out : Phase → List Byte
  | .answered _ response => encodedFrame response
  | _ => []

/-- What was handed over in this transaction. -/
def handed : Phase → List Host.Frame
  | .taken request _ => [request.frame]
  | .answered request _ => [request.frame]
  | _ => []

/-- What a slot holds. -/
def box : Phase → Slot → Option ProtocolFrame
  | .taken request frame, k => if k = request.slot then some frame else none
  | _, _ => none

/-- The bytes that the host may still add to those under way before the
task enqueues a response. A request has at most fourteen. -/
def toCome : Phase → ℕ
  | .free => 14
  | .answered .. => 14
  | _ => 0

/-- The frame taken is that of the request, and the response one that the
reader accepts. -/
def Fits : Phase → Prop
  | .taken request frame => frame.toHost = request.frame
  | .answered _ response => response.length.toNat ≤ 8
  | _ => True

end Phase

/-- The bytes of the responses that the host has read. -/
def HostSide.received (h : HostSide) : List Byte :=
  h.transactions.flatMap fun x => (Host.encodeFrame x.2).toOption.getD []

/-- **The conversation of a firmware and a waiting host** since `origin`.
`held` is what `communication_task` has read and not processed, and the
flag of `sending` is still to be cleared. -/
structure Conversation (origin : Firmware) (sending : Option Slot) (held : List Byte)
    (phase : Phase) (t : Firmware × HostSide) : Prop where
  rxIndexed : t.1.uart.rx.RxIndexed
  txIndexed : t.1.uart.tx.TxIndexed
  enabled : isSet t.1.uart.tx.ucsr0b rxcie0 = true
  overflow : t.1.uart.rx.rxOverflowCount = origin.uart.rx.rxOverflowCount
  unblocked : t.1.protocol.slots.watchdogBlockRequestPending = 0
  fits : phase.Fits
  awaiting : t.2.awaiting = phase.awaiting
  line : ∃ cur, Collecting cur t.1.protocol ∧
    cur ++ held ++ t.1.uart.rx.rxQueue ++ t.2.toMcu = phase.line
  out : t.2.fromMcu ++ t.1.uart.tx.txQueue = phase.out
  boxes : ∀ k, sending ≠ some k → t.1.protocol.slots.Box k (phase.box k)
  handedOver : t.1.accepted.map ProtocolFrame.toHost =
    origin.accepted.map ProtocolFrame.toHost ++ t.2.transactions.map (fun x => x.1.frame) ++
      phase.handed
  transmitted : t.1.uart.tx.udr0 = origin.uart.tx.udr0 ++ t.2.received ++ t.2.fromMcu

variable {origin s s' : Firmware} {h h' : HostSide} {t t' : Firmware × HostSide}
variable {x : WorldInterrupt} {sending : Option Slot} {held cur : List Byte} {phase : Phase} {k : Slot}
variable {request : HostRequest} {frame response : ProtocolFrame} {p : Protocol}

theorem Phase.length_line_le (phase : Phase) : phase.line.length ≤ 14 := by
  rcases phase with _ | request | _ | _
  · exact Nat.zero_le 14
  · exact request.length_bytes_le
  · exact Nat.zero_le 14
  · exact Nat.zero_le 14

/-- **The receive ring has room** for whatever is under way. -/
theorem Conversation.length_rxQueue_le (hc : Conversation origin sending held phase (s, h)) :
    s.uart.rx.rxQueue.length + h.toMcu.length ≤ 14 := by
  obtain ⟨cur, -, hline⟩ := hc.line
  have hle := phase.length_line_le
  rw [← hline] at hle
  simp only [List.length_append] at hle
  omega

/-- With nothing under way there is nothing anywhere. -/
theorem Conversation.line_nil (hc : Conversation origin sending held phase (s, h))
    (hl : phase.line = []) :
    s.protocol.parserState = .waitSof ∧ held = [] ∧ s.uart.rx.rxQueue = [] ∧ h.toMcu = [] := by
  obtain ⟨cur, hcol, hline⟩ := hc.line
  rw [hl] at hline
  simp only [List.append_eq_nil_iff] at hline
  obtain ⟨⟨⟨rfl, hheld⟩, hrx⟩, hto⟩ := hline
  refine ⟨?_, hheld, hrx, hto⟩
  obtain ⟨hs⟩ := hcol
  exact hs

/-- A whole request is no candidate that is open. -/
theorem Collecting.ne_bytes (hcol : Collecting cur p) (request : HostRequest) :
    cur ≠ request.bytes := by
  rintro rfl
  have hun := hcol.unfinished
  rw [← request.bytes_segment, ← List.append_nil request.segment.bytes] at hun
  exact segment_not_unfinished _ _ hun

/-- So some of it has still to come. -/
theorem Conversation.rest_ne_nil (hc : Conversation origin sending [] (.asked request) (s, h)) :
    s.uart.rx.rxQueue ++ h.toMcu ≠ [] := by
  obtain ⟨cur, hcol, hline⟩ := hc.line
  intro hnil
  rw [List.append_nil, List.append_assoc, hnil, List.append_nil] at hline
  exact hcol.ne_bytes request hline

/-- What leaves the queues, the parser and the slots alone keeps the
conversation. -/
theorem Conversation.of_same (hc : Conversation origin sending held phase (s, h))
    (hp : s'.protocol = s.protocol) (ha : s'.accepted = s.accepted)
    (hrx : s'.uart.rx = s.uart.rx) (htx : s'.uart.tx.TxIndexed)
    (hen : isSet s'.uart.tx.ucsr0b rxcie0 = isSet s.uart.tx.ucsr0b rxcie0)
    (hq : s'.uart.tx.txQueue = s.uart.tx.txQueue) (hu : s'.uart.tx.udr0 = s.uart.tx.udr0) :
    Conversation origin sending held phase (s', h) := by
  refine ⟨?_, htx, hen.trans hc.enabled, ?_, ?_, hc.fits, hc.awaiting, ?_, ?_, ?_, ?_, ?_⟩
  · rw [hrx]
    exact hc.rxIndexed
  · rw [hrx]
    exact hc.overflow
  · rw [hp]
    exact hc.unblocked
  · rw [hp, hrx]
    exact hc.line
  · rw [hq]
    exact hc.out
  · rw [hp]
    exact hc.boxes
  · rw [ha]
    exact hc.handedOver
  · rw [hu]
    exact hc.transmitted

/-! ## What comes between two accesses -/

/-- A byte of the line arrives. -/
theorem Conversation.arrive (hc : Conversation origin sending held phase (s, h)) {byte : Byte}
    {rest : List Byte} (hline : h.toMcu = byte :: rest) :
    (usartRxVect byte s.uart.rx).rxQueue = s.uart.rx.rxQueue ++ [byte] ∧
      Conversation origin sending held phase
        (Firmware.rxLens.set (usartRxVect byte s.uart.rx) s, { h with toMcu := rest }) := by
  have hroom := hc.length_rxQueue_le
  obtain ⟨hqueue, hcount⟩ : (usartRxVect byte s.uart.rx).rxQueue = s.uart.rx.rxQueue ++ [byte] ∧
      (usartRxVect byte s.uart.rx).rxOverflowCount = s.uart.rx.rxOverflowCount := by
    obtain ⟨-, hq, he⟩ | ⟨hfull, -⟩ := usartRxVect_cases hc.rxIndexed byte
    · refine ⟨hq, ?_⟩
      rw [he]
    · dsimp only at hfull
      omega
  refine ⟨hqueue, rxIndexed_usartRxVect hc.rxIndexed, hc.txIndexed, hc.enabled,
    hcount.trans hc.overflow, hc.unblocked, hc.fits, hc.awaiting, ?_, hc.out, hc.boxes,
    hc.handedOver, hc.transmitted⟩
  obtain ⟨cur, hcol, hall⟩ := hc.line
  refine ⟨cur, hcol, ?_⟩
  show cur ++ held ++ (usartRxVect byte s.uart.rx).rxQueue ++ rest = phase.line
  rw [hqueue, ← hall, hline]
  simp only [List.append_assoc, List.singleton_append]

/-- A byte is written to `UDR0`, or the interrupt disables itself. -/
theorem Conversation.send (hc : Conversation origin sending held phase (s, h)) :
    Conversation origin sending held phase
      (Firmware.txLens.set (usartUdreVect s.uart.tx) s, { h with
        fromMcu := h.fromMcu ++ (usartUdreVect s.uart.tx).udr0.drop s.uart.tx.udr0.length }) := by
  have hen : isSet (usartUdreVect s.uart.tx).ucsr0b rxcie0 = true :=
    (isSet_ucsr0b_usartUdreVect (by decide) (by decide)).trans hc.enabled
  have hmoved : ∃ sent, (usartUdreVect s.uart.tx).udr0 = s.uart.tx.udr0 ++ sent ∧
      s.uart.tx.txQueue = sent ++ (usartUdreVect s.uart.tx).txQueue := by
    obtain ⟨b, hq, -, he⟩ | ⟨-, he⟩ := usartUdreVect_cases hc.txIndexed
    · exact ⟨[b], congrArg UartTx.udr0 he, hq⟩
    · refine ⟨[], ?_, ?_⟩
      · rw [he, List.append_nil]
      · rw [he]
        rfl
  obtain ⟨sent, hudr, hq⟩ := hmoved
  have hnew : (usartUdreVect s.uart.tx).udr0.drop s.uart.tx.udr0.length = sent := by
    rw [hudr, List.drop_left]
  rw [hnew]
  refine ⟨hc.rxIndexed, txIndexed_usartUdreVect hc.txIndexed, hen, hc.overflow, hc.unblocked,
    hc.fits, hc.awaiting, hc.line, ?_, hc.boxes, hc.handedOver, ?_⟩
  · show h.fromMcu ++ sent ++ (usartUdreVect s.uart.tx).txQueue = phase.out
    rw [List.append_assoc, ← hq]
    exact hc.out
  · show (usartUdreVect s.uart.tx).udr0 = _
    have htransmitted : s.uart.tx.udr0 = _ := hc.transmitted
    rw [hudr, htransmitted, List.append_assoc, List.append_assoc, List.append_assoc]
    rfl

/-- The host writes a request, and the conversation is about its bytes. -/
theorem Conversation.write (hc : Conversation origin sending held phase (s, h))
    (ha : h.awaiting = none) (request : HostRequest) :
    phase = .free ∧ Conversation origin sending held (.asked request)
      (s, { h with toMcu := h.toMcu ++ request.bytes, awaiting := some request }) := by
  obtain rfl : phase = .free := by
    have hawait := hc.awaiting
    rw [show (s, h).2.awaiting = none from ha] at hawait
    rcases phase with _ | _ | _ | _
    · rfl
    · cases hawait
    · cases hawait
    · cases hawait
  refine ⟨rfl, hc.rxIndexed, hc.txIndexed, hc.enabled, hc.overflow, hc.unblocked, trivial, rfl,
    ?_, hc.out, hc.boxes, hc.handedOver, hc.transmitted⟩
  obtain ⟨cur, hcol, hline⟩ := hc.line
  refine ⟨cur, hcol, ?_⟩
  show cur ++ held ++ s.uart.rx.rxQueue ++ (h.toMcu ++ request.bytes) = request.bytes
  rw [← List.append_assoc, show cur ++ held ++ s.uart.rx.rxQueue ++ h.toMcu = [] from hline]
  rfl

/-- A response is what the reader reads. -/
theorem readProtocolFrame_encodedFrame (hlen : response.length.toNat ≤ 8) :
    Host.readProtocolFrame (encodedFrame response) = (.ok response.toHost, []) := by
  have hannounced : Host.announced (encodedFrame response) = response.length.toNat := rfl
  have hdecode : Host.decodeFrame (encodedFrame response) = .ok response.toHost :=
    Host.decodeFrame_of_encodeFrame (encodeFrame_toHost hlen)
  have hle : ¬ response.length.toNat > Host.maxPayload := Nat.not_lt.mpr hlen
  have hchunk : Host.Chunk (encodedFrame response) := by
    unfold Host.Chunk Host.readSize
    rw [hannounced, if_neg hle, length_encodedFrame]
  have hread : Host.readProtocolFrame (encodedFrame response ++ []) =
      (Host.readChunk (encodedFrame response), []) := Host.readProtocolFrame_chunk hchunk
  rw [List.append_nil] at hread
  rw [hread]
  unfold Host.readChunk
  rw [hannounced, if_neg hle, hdecode]

/-- **From the front of a response** the reader reads all of it, or it
times out. -/
theorem readProtocolFrame_prefixed {x y : List Byte} (hlen : response.length.toNat ≤ 8)
    (hxy : x ++ y = encodedFrame response) :
    (y = [] ∧ Host.readProtocolFrame x = (.ok response.toHost, [])) ∨
      ∃ error, Host.readProtocolFrame x = (.error error, []) ∧ error.serialTimeout = true := by
  have hsize := congrArg List.length hxy
  rw [List.length_append, length_encodedFrame] at hsize
  by_cases hshort : x.length < 6 + response.length.toNat
  · refine .inr (Host.readProtocolFrame_timeout ?_)
    by_cases hfive : x.length < 5
    · exact .inl hfive
    · have hx : Host.announced x = response.length.toNat := by
        rw [← Host.announced_append (Nat.le_of_not_lt hfive), hxy]
        rfl
      rw [hx]
      exact .inr ⟨hlen, hshort⟩
  · have hy : y = [] := List.length_eq_zero_iff.mp (by omega)
    rw [hy, List.append_nil] at hxy
    rw [hxy]
    exact .inl ⟨hy, readProtocolFrame_encodedFrame hlen⟩

/-- The reader returns the response that was sent, and the host is free
again. -/
theorem Conversation.read (hc : Conversation origin sending held phase (s, h))
    (ha : h.awaiting = some request) {frame : Host.Frame} {rest : List Byte}
    (hr : Host.readProtocolFrame h.fromMcu = (.ok frame, rest)) :
    (∃ response, phase = .answered request response ∧ frame = response.toHost) ∧
      Conversation origin sending held .free (s, { h with
        fromMcu := rest
        awaiting := none
        transactions := h.transactions ++ [(request, frame)] }) := by
  have hout : h.fromMcu ++ s.uart.tx.txQueue = phase.out := hc.out
  have hawait : some request = phase.awaiting := ha.symm.trans hc.awaiting
  -- with no response under way the reader has no byte
  have hnone : phase.out = [] → False := by
    intro hnil
    rw [hnil, List.append_eq_nil_iff] at hout
    have hshort : h.fromMcu.length < 5 := by
      rw [hout.1]
      exact Nat.succ_pos 4
    obtain ⟨error, herror, -⟩ := Host.readProtocolFrame_timeout (.inl hshort)
    rw [hr] at herror
    cases herror
  rcases phase with _ | request' | ⟨request', frame'⟩ | ⟨request', response⟩
  · exact (hnone rfl).elim
  · exact (hnone rfl).elim
  · exact (hnone rfl).elim
  obtain rfl : request = request' := Option.some.inj hawait
  have hlen : response.length.toNat ≤ 8 := hc.fits
  obtain ⟨hqueue, rfl, rfl⟩ :
      s.uart.tx.txQueue = [] ∧ frame = response.toHost ∧ rest = [] := by
    rcases readProtocolFrame_prefixed hlen hout with ⟨hy, hread⟩ | ⟨error, herror, -⟩
    · rw [hr] at hread
      obtain ⟨hframe, hrest⟩ := Prod.mk.inj hread
      exact ⟨hy, Except.ok.inj hframe, hrest⟩
    · rw [hr] at herror
      cases herror
  refine ⟨⟨response, rfl, rfl⟩, hc.rxIndexed, hc.txIndexed, hc.enabled, hc.overflow,
    hc.unblocked, trivial, rfl, hc.line, ?_, hc.boxes, ?_, ?_⟩
  · exact hqueue
  · have hhanded := hc.handedOver
    show s.accepted.map ProtocolFrame.toHost = _
    rw [show s.accepted.map ProtocolFrame.toHost = _ from hhanded]
    simp [Phase.handed]
  · have hsent := hc.transmitted
    show s.uart.tx.udr0 = _
    rw [hqueue, List.append_nil] at hout
    rw [show s.uart.tx.udr0 = _ from hsent]
    simp only [HostSide.received, List.flatMap_append, List.flatMap_singleton,
      encodeFrame_toHost hlen]
    rw [hout]
    simp [Phase.out, Except.toOption]

/-- **What comes between two accesses** keeps the conversation, and what
the slots hold of it. -/
theorem Conversation.env (hc : Conversation origin sending held phase (s, h))
    (hstep : WorldStep s h x s' h') :
    ∃ phase', Conversation origin sending held phase' (s', h') ∧ phase'.box = phase.box := by
  rcases hstep with ⟨byte, rest, hline⟩ | _ | ⟨_, _, hu, hp, ha, -⟩ |
    ⟨request, ha⟩ | ⟨request, frame, rest, ha, hr⟩
  · exact ⟨phase, (hc.arrive hline).2, rfl⟩
  · exact ⟨phase, hc.send, rfl⟩
  · refine ⟨phase, hc.of_same hp ha ?_ ?_ ?_ ?_ ?_, rfl⟩
    · rw [hu]
    · rw [hu]
      exact hc.txIndexed
    · rw [hu]
    · rw [hu]
    · rw [hu]
  · obtain ⟨rfl, hc'⟩ := hc.write ha request
    exact ⟨_, hc', rfl⟩
  · obtain ⟨⟨response, rfl, rfl⟩, hc'⟩ := hc.read ha hr
    exact ⟨_, hc', rfl⟩

/-! ## The accesses of the task -/

/-- A byte is read from the ring. -/
theorem Conversation.receive (hc : Conversation origin sending [] phase (s, h)) {byte : Byte}
    {u : UartRx} (hq : s.uart.rx.rxQueue = byte :: u.rxQueue) (hu : u.RxIndexed)
    (hcount : u.rxOverflowCount = s.uart.rx.rxOverflowCount) :
    Conversation origin sending [byte] phase (Firmware.rxLens.set u s, h) := by
  obtain ⟨cur, hcol, hline⟩ := hc.line
  refine ⟨hu, hc.txIndexed, hc.enabled, hcount.trans hc.overflow, hc.unblocked, hc.fits,
    hc.awaiting, ⟨cur, hcol, ?_⟩, hc.out, hc.boxes, hc.handedOver, hc.transmitted⟩
  have hall : cur ++ [] ++ s.uart.rx.rxQueue ++ h.toMcu = phase.line := hline
  rw [← hall, hq]
  simp only [List.append_nil, List.append_assoc, List.cons_append]
  rfl

/-- **A request handed over to free slots** takes its own, and no other. -/
theorem boxes_taken {q : Slots} (hfree : ∀ k, q.Box k none)
    (hto : frame.toHost = request.frame) (hlen : frame.length.toNat ≤ 8) (k : Slot) :
    (protocolHandleFrame frame q).Box k ((Phase.taken request frame).box k) := by
  have hslot : frame.slot = some request.slot := HostRequest.slot_of_toHost hto
  have htakes : q.takes frame = true := (takes_iff hslot q).mpr (hfree request.slot)
  have hnil : RequestRun [] fun _ => none := .nil
  obtain ⟨m, hrun, hbox⟩ := boxes_handleFrame hnil hfree hlen
  rw [htakes, List.nil_append] at hrun
  obtain ⟨f, pos, hm⟩ := hrun.matching
  -- the one entry of the journal is what the one full box holds
  have hone : m k = (Phase.taken request frame).box k := by
    rcases hmk : m k with _ | a
    · rcases hm.kept 0 frame rfl with ⟨k', hk', -⟩ | ⟨i, data, hi, -⟩
      · have hkk : some request.slot = some k' := hslot.symm.trans (hrun.box_eq hk')
        have hne : k ≠ request.slot := by
          rintro rfl
          rw [Option.some.inj hkk, hk'] at hmk
          cases hmk
        exact (if_neg hne).symm
      · rcases i with _ | i
        · cases hi
        · cases hi
    · obtain ⟨hk, hentry, -⟩ := hm.held k a hmk
      obtain rfl : frame = a := by
        rcases hp : pos k with _ | i
        · rw [hp] at hentry
          simpa using hentry
        · rw [hp] at hentry
          cases hentry
      have hkk : k = request.slot := Option.some.inj (hk.symm.trans hslot)
      exact (if_pos hkk).symm
  rw [← hone]
  exact hbox k

/-- No request of the host sets the block flag. -/
theorem watchdogBlock_of_toHost {q : Slots} (hto : frame.toHost = request.frame) :
    (protocolHandleFrame frame q).watchdogBlockRequestPending = q.watchdogBlockRequestPending := by
  obtain ⟨kind, hr⟩ | hr | ⟨response, hr⟩ := request_cases frame q.pendingFrame.payload
  · rw [protocolHandleFrame_status hr]
    split <;> rfl
  · have hslot := HostRequest.slot_of_toHost hto
    rw [slot_eq_none_iff.mpr hr] at hslot
    cases hslot
  · rw [protocolHandleFrame_immediate hr]
    split <;> rfl

/-- **A byte is processed**: the last of a request hands it over. -/
theorem Conversation.process {byte : Byte} (nowMs : Word32)
    (hc : Conversation origin none [byte] phase (s, h)) :
    ∃ phase', phase'.toCome = phase.toCome ∧
      Conversation origin none [] phase' (s.processByte byte nowMs, h) := by
  obtain ⟨cur, hcol, hall⟩ := hc.line
  have hline : cur ++ [byte] ++ s.uart.rx.rxQueue ++ h.toMcu = phase.line := hall
  -- only the bytes of a request are ever under way
  obtain ⟨request, rfl⟩ : ∃ request, phase = .asked request := by
    rcases phase with _ | request | _ | _
    · simp [Phase.line] at hline
    · exact ⟨request, rfl⟩
    · simp [Phase.line] at hline
    · simp [Phase.line] at hline
  have hslots := slots_protocolProcessByte byte nowMs s.protocol
  have hfree : ∀ k, s.protocol.slots.Box k none :=
    fun k => hc.boxes k (Option.some_ne_none k).symm
  rcases hcol.step byte nowMs with ⟨hext, hf, -⟩ | ⟨piece, hbytes, hwait, hf, -⟩
  · rw [hf] at hslots
    have ha : (s.processByte byte nowMs).accepted = s.accepted := by
      simp only [Firmware.processByte, hf, Option.toList_none, List.append_nil]
    refine ⟨.asked request, rfl, hc.rxIndexed, hc.txIndexed, hc.enabled, hc.overflow, ?_,
      trivial, hc.awaiting, ⟨cur ++ [byte], hext, ?_⟩, hc.out, fun k _ => ?_, ?_, hc.transmitted⟩
    · exact (congrArg Slots.watchdogBlockRequestPending hslots).trans hc.unblocked
    · rw [List.append_nil]
      exact hline
    · show (protocolProcessByte byte nowMs s.protocol).slots.Box k none
      rw [hslots]
      exact hfree k
    · show (s.processByte byte nowMs).accepted.map ProtocolFrame.toHost = _
      rw [ha]
      exact hc.handedOver
  · -- what ends here starts with the request, so that it is the request
    have hsplit : piece.bytes ++ (s.uart.rx.rxQueue ++ h.toMcu) =
        request.segment.bytes ++ [] := by
      rw [hbytes, ← List.append_assoc, hline, List.append_nil]
      rfl
    obtain rfl := segment_free hsplit
    have hrest : s.uart.rx.rxQueue ++ h.toMcu = [] := List.append_cancel_left hsplit
    rw [request.decoded_segment, Option.map_eq_some_iff] at hf
    obtain ⟨frame, hframe, hto⟩ := hf
    rw [hframe] at hslots
    have hlen : frame.length.toNat ≤ 8 := by
      rw [(HostRequest.fields_of_toHost hto).2.2.2]
      exact request.length_payload_le
    have ha : (s.processByte byte nowMs).accepted = s.accepted ++ [frame] := by
      simp only [Firmware.processByte, hframe, Option.toList_some]
    refine ⟨.taken request frame, rfl, hc.rxIndexed, hc.txIndexed, hc.enabled, hc.overflow, ?_,
      hto, hc.awaiting, ⟨[], .idle hwait, ?_⟩, hc.out, fun k _ => ?_, ?_, hc.transmitted⟩
    · show (protocolProcessByte byte nowMs s.protocol).slots.watchdogBlockRequestPending = 0
      rw [hslots, watchdogBlock_of_toHost hto]
      exact hc.unblocked
    · exact hrest
    · show (protocolProcessByte byte nowMs s.protocol).slots.Box k _
      rw [hslots]
      exact boxes_taken hfree hto hlen k
    · have hhanded : s.accepted.map ProtocolFrame.toHost = _ := hc.handedOver
      show (s.processByte byte nowMs).accepted.map ProtocolFrame.toHost = _
      rw [ha, List.map_append, hhanded, List.map_singleton, hto]
      simp only [Phase.handed, List.append_nil]

/-- The bytes of a frame are those of no other. -/
theorem toHost_of_encodedFrame (hlen : response.length.toNat ≤ 8)
    (hlen' : frame.length.toNat ≤ 8) (hdata : encodedFrame response = encodedFrame frame) :
    response.toHost = frame.toHost := by
  have hdecode := Host.decodeFrame_of_encodeFrame (encodeFrame_toHost hlen)
  rw [hdata, Host.decodeFrame_of_encodeFrame (encodeFrame_toHost hlen')] at hdecode
  exact (Except.ok.inj hdecode).symm

/-- A slot that is full holds the request that was taken, and what it is
answered by answers that, where a status reports the state. -/
theorem Conversation.outgoing (hc : Conversation origin none [] phase (s, h))
    (hout : Outgoing s.protocol.slots k response) :
    ∃ request frame, phase = .taken request frame ∧ k = request.slot ∧
      response.length.toNat ≤ 8 ∧ ∀ r : Readings,
        (∀ kind, k = some kind → response.data = kind.report s r) →
          request.AnsweredBy s r response.toHost := by
  have hbox := hc.boxes k (Option.some_ne_none k).symm
  rcases hpb : phase.box k with _ | frame
  · rw [hpb] at hbox
    exact absurd hout.full hbox
  rw [hpb] at hbox
  rcases phase with _ | _ | ⟨request, frame'⟩ | _
  · cases hpb
  · cases hpb
  · have hto : frame'.toHost = request.frame := hc.fits
    have hslot : frame'.slot = some request.slot := HostRequest.slot_of_toHost hto
    by_cases hk : k = request.slot
    · obtain rfl : frame' = frame := Option.some.inj ((if_pos hk).symm.trans hpb)
      rw [← hk] at hslot
      obtain ⟨hlen, response', hlen', hdata, hq, hdoc⟩ :=
        answers_of_outgoing hslot hbox.1 hbox.2 hout
      have hsame : response.toHost = response'.toHost := toHost_of_encodedFrame hlen hlen' hdata
      refine ⟨request, frame', rfl, hk, hlen, fun r hreport => ?_⟩
      rw [hsame]
      refine HostRequest.answeredBy_of_documented hto hq hdoc fun kind sequence hstatus => ?_
      have hpayload : response.data = response'.data := congrArg Host.Frame.payload hsame
      rw [← hpayload]
      refine hreport kind ?_
      rw [hk, hstatus]
      rfl
    · exact absurd ((if_neg hk).symm.trans hpb) (Option.some_ne_none frame).symm
  · cases hpb

/-- **A response is enqueued** for a host that waits for it, where nothing
was under way. -/
def Enqueues (r : Readings) (t t' : Firmware × HostSide) : Prop :=
  ∃ request ∈ t.2.awaiting, ∃ response, request.AnsweredBy t.1 r response ∧
    t.2.fromMcu ++ t.1.uart.tx.txQueue = [] ∧
    Host.encodeFrame response = .ok t'.1.uart.tx.txQueue

/-- The response is enqueued, and all of it is to come. -/
theorem Conversation.publish (hc : Conversation origin none [] phase (s, h)) {head : Byte}
    {r : Readings} (hout : Outgoing s.protocol.slots k response)
    (hreport : ∀ kind, k = some kind → response.data = kind.report s r)
    (hlt : head.toNat < uartTxBufferSize)
    (hq : UartTx.txQueue { s.uart.tx with txHead := head } =
      s.uart.tx.txQueue ++ encodedFrame response) :
    Enqueues r (s, h) (Firmware.txLens.set { s.uart.tx with txHead := head } s, h) ∧
      ∃ phase', Conversation origin (some k) [] phase'
          (Firmware.txLens.set { s.uart.tx with txHead := head } s, h) ∧
        ∀ k, phase'.box k = none := by
  obtain ⟨request, frame, rfl, rfl, hlen, hanswered⟩ := hc.outgoing hout
  have hnone : h.fromMcu ++ s.uart.tx.txQueue = [] := hc.out
  obtain ⟨hfrom, hqueue⟩ := List.append_eq_nil_iff.mp hnone
  have hqueue' : UartTx.txQueue { s.uart.tx with txHead := head } = encodedFrame response := by
    rw [hq, hqueue]
    rfl
  refine ⟨⟨request, hc.awaiting, response.toHost, hanswered r hreport, hnone, ?_⟩,
    .answered request response, ⟨hc.rxIndexed, ⟨hlt, hc.txIndexed.2⟩, hc.enabled, hc.overflow,
      hc.unblocked, hlen, hc.awaiting, hc.line, ?_, fun k' hk' => ?_, hc.handedOver,
      hc.transmitted⟩, fun _ => rfl⟩
  · show Host.encodeFrame response.toHost = .ok (UartTx.txQueue { s.uart.tx with txHead := head })
    rw [hqueue']
    exact encodeFrame_toHost hlen
  · show h.fromMcu ++ UartTx.txQueue { s.uart.tx with txHead := head } = encodedFrame response
    rw [hqueue', hfrom]
    rfl
  · -- the other slots hold nothing, as before
    have hne : k' ≠ request.slot := fun he => hk' (by rw [he])
    have hbox := hc.boxes k' (Option.some_ne_none k').symm
    rw [show (Phase.taken request frame).box k' = none from if_neg hne] at hbox
    exact hbox

/-- The flag of the slot that was answered is cleared. -/
theorem Conversation.clear (hc : Conversation origin (some k) [] phase (s, h))
    (hempty : ∀ k, phase.box k = none) :
    Conversation origin none [] phase
      (Firmware.slotsLens.set (s.protocol.slots.sent k) s, h) := by
  obtain ⟨cur, hcol, hline⟩ := hc.line
  have hblock : (s.protocol.slots.sent k).watchdogBlockRequestPending = 0 := by
    rcases k with _ | kind
    · exact hc.unblocked
    · exact hc.unblocked
  refine ⟨hc.rxIndexed, hc.txIndexed, hc.enabled, hc.overflow, hblock, hc.fits, hc.awaiting,
    ⟨cur, hcol.congr rfl rfl rfl, hline⟩, hc.out, fun k' _ => ?_, hc.handedOver, hc.transmitted⟩
  show (s.protocol.slots.sent k).Box k' (phase.box k')
  by_cases hkk : k' = k
  · rw [hempty k', hkk]
    exact Slots.box_sent s.protocol.slots k
  · exact (hc.boxes k' fun he => hkk (Option.some.inj he).symm).sent hkk

/-! ## The task keeps the conversation -/

/-- A request under observation, `n` transactions after the start, has
arrived whole, or was answered since. -/
def Arrived (n : Option ℕ) (h : HostSide) : Prop :=
  ∀ m ∈ n, m < h.transactions.length ∨
    (m = h.transactions.length ∧ h.awaiting ≠ none ∧ h.toMcu = [])

/-- It was handed over. -/
def HandedOver (origin : Firmware) (n : Option ℕ) (s : Firmware) : Prop :=
  ∀ m ∈ n, origin.accepted.length + m < s.accepted.length

/-- **How things stand**: a conversation, with what `P` says of the slots. -/
def Stands (origin : Firmware) (n : Option ℕ) (sending : Option Slot) (held : List Byte)
    (P : (Slot → Option ProtocolFrame) → Prop) (t : Firmware × HostSide) : Prop :=
  (∃ phase, Conversation origin sending held phase t ∧ P phase.box) ∧ Arrived n t.2

/-- The firmware among its interrupts and the host. An execution enqueues
nothing but a response, and only if it is a pass of `communication_task`. -/
def worldContract (origin : Firmware) (d : Dispatch) : Contract (Firmware × HostSide) where
  rely t t' := ∃ x, WorldStep t.1 t.2 x t'.1 t'.2
  guar t t' := t'.2 = t.2 ∧ (t'.1.uart.tx.txQueue = t.1.uart.tx.txQueue ∨
    d.task = .communication ∧ Enqueues d.readings t t')
  inv t := ∃ sending held phase, Conversation origin sending held phase t

/-- The conversation through the communication task. -/
def worldInvariant (origin : Firmware) (n : Option ℕ) : CommInvariant (Firmware × HostSide) where
  drain := Stands origin n none [] fun _ => True
  held b := Stands origin n none [b] fun _ => True
  drained t := HandedOver origin n t.1
  serve todo t :=
    Stands origin n none [] (fun m => ∀ k, m k ≠ none → k ∈ todo) t ∧ HandedOver origin n t.1
  published k _ t :=
    Stands origin n (some k) [] (fun m => ∀ k, m k = none) t ∧ HandedOver origin n t.1

variable {n : Option ℕ} {P : (Slot → Option ProtocolFrame) → Prop} {d : Dispatch}

theorem Stands.inv (hs : Stands origin n sending held P t) : (worldContract origin d).inv t := by
  obtain ⟨⟨phase, hc, -⟩, -⟩ := hs
  exact ⟨sending, held, phase, hc⟩

/-- What has arrived has arrived, whatever the environment does next. -/
theorem Arrived.step (ha : Arrived n h) (hstep : WorldStep s h x s' h') : Arrived n h' := by
  intro m hm
  rcases hstep with ⟨byte, rest, hline⟩ | _ | ⟨_, _, -, -, -, -⟩ | ⟨request, hnone⟩ |
    ⟨request, frame, rest, -, -⟩
  · refine (ha m hm).imp_right fun harrived => ?_
    rw [hline] at harrived
    exact absurd harrived.2.2 (List.cons_ne_nil _ _)
  · exact ha m hm
  · exact ha m hm
  · exact (ha m hm).imp_right fun harrived => absurd hnone harrived.2.1
  · left
    show m < (h.transactions ++ [(request, frame)]).length
    rw [List.length_append, List.length_singleton]
    rcases ha m hm with hlt | ⟨rfl, -, -⟩
    · omega
    · omega

/-- **Nothing between two accesses changes how things stand.** -/
theorem stable_stands : Stable (worldContract origin d) (Stands origin n sending held P) := by
  rintro ⟨s, h⟩ ⟨s', h'⟩ ⟨⟨phase, hc, hP⟩, ha⟩ ⟨x, hstep⟩
  obtain ⟨phase', hc', hbox⟩ := hc.env hstep
  refine ⟨⟨phase', hc', ?_⟩, ha.step hstep⟩
  rw [hbox]
  exact hP

theorem protocol_of_worldStep (hstep : WorldStep s h x s' h') : s'.protocol = s.protocol := by
  rcases hstep with _ | _ | ⟨_, _, -, hp, -, -⟩ | _ | _
  · rfl
  · rfl
  · exact hp
  · rfl
  · rfl

theorem reports_of_worldStep (hstep : WorldStep s h x s' h') :
    KeepsReports s.profiler s'.profiler := by
  rcases hstep with _ | _ | ⟨_, _, -, -, -, hk⟩ | _ | _
  · exact .of_eq rfl
  · exact .of_eq rfl
  · exact hk
  · exact .of_eq rfl
  · exact .of_eq rfl

theorem accepted_of_worldStep (hstep : WorldStep s h x s' h') : s'.accepted = s.accepted := by
  rcases hstep with _ | _ | ⟨_, _, -, -, ha, -⟩ | _ | _
  · rfl
  · rfl
  · exact ha
  · rfl
  · rfl

theorem stable_handedOver :
    Stable (worldContract origin d) fun t => HandedOver origin n t.1 := by
  rintro ⟨s, h⟩ ⟨s', h'⟩ hn ⟨x, hstep⟩ m hm
  rw [accepted_of_worldStep hstep]
  exact hn m hm

/-- **Once the ring is seen empty**, a request that has arrived was handed
over. -/
theorem Stands.handedOver (hs : Stands origin n none [] P (s, h))
    (hempty : s.uart.rx.rxQueue = []) : HandedOver origin n s := by
  obtain ⟨⟨phase, hc, -⟩, ha⟩ := hs
  intro m hm
  have hcount : s.accepted.length =
      origin.accepted.length + h.transactions.length + phase.handed.length := by
    have hlist := congrArg List.length hc.handedOver
    simpa only [List.length_append, List.length_map] using hlist
  have harrived : m < h.transactions.length ∨
      (m = h.transactions.length ∧ h.awaiting ≠ none ∧ h.toMcu = []) := ha m hm
  rcases harrived with hlt | ⟨rfl, hawait, hline⟩
  · omega
  · have hone : phase.handed.length = 1 := by
      rcases phase with _ | request | _ | _
      · exact absurd hc.awaiting hawait
      · refine absurd ?_ hc.rest_ne_nil
        rw [hempty, hline]
        rfl
      · rfl
      · rfl
    omega

/-- An access that leaves the protocol, the accepted frames and the link alone
leaves the conversation where it stands. -/
theorem Stands.of_same (hs : Stands origin n sending held P (s, h))
    (hp : s'.protocol = s.protocol) (ha : s'.accepted = s.accepted)
    (hrx : s'.uart.rx = s.uart.rx) (htx : s.uart.tx.TxIndexed → s'.uart.tx.TxIndexed)
    (hen : isSet s'.uart.tx.ucsr0b rxcie0 = isSet s.uart.tx.ucsr0b rxcie0)
    (hq : s'.uart.tx.txQueue = s.uart.tx.txQueue) (hu : s'.uart.tx.udr0 = s.uart.tx.udr0) :
    Stands origin n sending held P (s', h) := by
  obtain ⟨⟨phase, hc, hP⟩, harrived⟩ := hs
  exact ⟨⟨phase, hc.of_same hp ha hrx (htx hc.txIndexed) hen hq hu, hP⟩, harrived⟩

/-- **Every access of the communication task keeps the conversation**, once
its check has left the candidate alone. -/
theorem world_kept (r : Readings) :
    (worldInvariant origin n).KeptOnTime Lens.first (worldContract origin ⟨.communication, r⟩) r where
  guar_refl _ := ⟨rfl, .inl rfl⟩
  protocol_rely := fun _ _ ⟨_, hstep⟩ => protocol_of_worldStep hstep
  tx_rely := by
    rintro ⟨s, h⟩ ⟨s', h'⟩ ⟨x, hstep⟩
    rcases hstep with _ | _ | ⟨_, _, hu, -, -, -⟩ | _ | _
    · exact .inl rfl
    · exact .inr rfl
    · exact .inl (congrArg Uart.tx hu)
    · exact .inl rfl
    · exact .inl rfl
  rx_rely := by
    rintro ⟨s, h⟩ ⟨s', h'⟩ ⟨x, hstep⟩
    rcases hstep with ⟨byte, -, -⟩ | _ | ⟨_, _, hu, -, -, -⟩ | _ | _
    · exact .inr ⟨byte, rfl⟩
    · exact .inl rfl
    · exact .inl (congrArg Uart.rx hu)
    · exact .inl rfl
    · exact .inl rfl
  reports_rely := fun _ _ ⟨_, hstep⟩ => reports_of_worldStep hstep
  stable_drain :=
    show Stable (worldContract origin ⟨.communication, r⟩)
        (Stands origin n none [] fun _ => True) from stable_stands
  stable_held b :=
    show Stable (worldContract origin ⟨.communication, r⟩)
        (Stands origin n none [b] fun _ => True) from stable_stands
  stable_drained := stable_handedOver
  stable_serve _ := stable_stands.and stable_handedOver
  stable_published _ _ := stable_stands.and stable_handedOver
  inv_drain t hs := by
    have hstands : Stands origin n none [] (fun _ => True) t := hs
    exact hstands.inv
  inv_held b t hs := by
    have hstands : Stands origin n none [b] (fun _ => True) t := hs
    exact hstands.inv
  inv_serve _ _ hs := hs.1.inv
  inv_published _ _ _ hs := hs.1.inv
  rxIndexed := by
    rintro t ⟨⟨phase, hc, -⟩, -⟩
    exact hc.rxIndexed
  txIndexed := by
    rintro todo t ⟨⟨⟨phase, hc, -⟩, -⟩, -⟩
    exact hc.txIndexed
  receive := by
    rintro ⟨s, h⟩ b u ⟨⟨phase, hc, -⟩, ha⟩ hq hu - hcount
    exact ⟨⟨rfl, .inl rfl⟩, ⟨phase, hc.receive hq hu hcount, trivial⟩, ha⟩
  process := by
    rintro ⟨s, h⟩ b i ⟨⟨phase, hc, -⟩, ha⟩
    obtain ⟨phase', -, hc'⟩ := hc.process (r.byteMs i)
    exact ⟨⟨rfl, .inl rfl⟩, ⟨phase', hc', trivial⟩, ha⟩
  seen_empty := by
    rintro ⟨s, h⟩ hs hempty
    have hstands : Stands origin n none [] (fun _ => True) (s, h) := hs
    exact hstands.handedOver hempty
  serve_all := by
    rintro t ⟨⟨phase, hc, -⟩, ha⟩ hn
    exact ⟨⟨⟨phase, hc, fun k _ => mem_servedSlots k⟩, ha⟩, hn⟩
  block := by
    refine Triple.of_false ?_
    rintro t ⟨⟨⟨⟨phase, hc, -⟩, -⟩, -⟩, hblock⟩
    exact hblock hc.unblocked
  scan := by
    rintro ⟨s, h⟩ p todo ⟨hs, hn⟩
    exact ⟨⟨rfl, .inl rfl⟩, hs.of_same rfl rfl rfl id rfl rfl rfl, hn⟩
  skip := by
    rintro ⟨s, h⟩ k todo ⟨⟨⟨phase, hc, htodo⟩, ha⟩, hn⟩ hfree
    refine ⟨⟨⟨phase, hc, fun k' hk' => ?_⟩, ha⟩, hn⟩
    refine (List.mem_cons.mp (htodo k' hk')).resolve_left ?_
    rintro rfl
    -- a slot that is not full holds nothing
    obtain ⟨frame, hframe⟩ := Option.ne_none_iff_exists'.mp hk'
    have hbox := hc.boxes k' (Option.some_ne_none k').symm
    rw [hframe] at hbox
    exact hfree hbox.1.full
  noRoom := by
    rintro ⟨s, h⟩ k todo frame ⟨⟨⟨phase, hc, -⟩, -⟩, -⟩ hout hroom
    obtain ⟨request, taken, rfl, -, hlen, -⟩ := hc.outgoing hout
    have hempty : h.fromMcu ++ s.uart.tx.txQueue = [] := hc.out
    have hqueue : s.uart.tx.txQueue.length = 0 := by
      rw [(List.append_eq_nil_iff.mp hempty).2]
      rfl
    have hsize : uartTxBufferSize = 64 := rfl
    have hroom' : 8 < frame.length.toNat ∨
        uartTxBufferSize ≤ s.uart.tx.txQueue.length + (6 + frame.length.toNat) := hroom
    omega
  fill := by
    rintro ⟨s, h⟩ i b todo ⟨hs, hn⟩ hi u u'
    have hqueue := txQueue_update (b := b) hi
    exact ⟨⟨rfl, .inl hqueue⟩, hs.of_same rfl rfl rfl id rfl hqueue rfl, hn⟩
  publish := by
    rintro ⟨s, h⟩ k todo frame head ⟨⟨⟨phase, hc, -⟩, ha⟩, hn⟩ hans - hlt u u' hq
    have hreport : ∀ kind, k = some kind → frame.data = kind.report s r := by
      rintro kind rfl
      obtain ⟨-, ⟨s₀, h₀⟩, ⟨⟨⟨_, hc₀, -⟩, -⟩, -⟩, hframe⟩ := hans
      -- no byte is ever dropped, so that the count read before is the count now
      have hcount : s₀.uart.rx.rxOverflowCount = s.uart.rx.rxOverflowCount :=
        hc₀.overflow.trans hc.overflow.symm
      have hlen : (kind.report s r).length ≤ 8 := length_reportWith_le
      have hframe' : frame = statusFrame kind (s.protocol.slots.sequence kind)
          (kind.reportWith s₀.uart.rx.rxOverflowCount s r) := hframe
      rw [hframe', hcount]
      exact data_statusFrame hlen
    obtain ⟨henqueues, phase', hc', hempty⟩ := hc.publish hans.outgoing hreport hlt hq
    exact ⟨⟨rfl, .inr ⟨rfl, henqueues⟩⟩, ⟨⟨phase', hc', hempty⟩, ha⟩, hn⟩
  enable := by
    rintro ⟨s, h⟩ k todo ucsr0b ⟨hs, hn⟩ - hkeep
    have hen : isSet ucsr0b rxcie0 = isSet s.uart.tx.ucsr0b rxcie0 :=
      hkeep rxcie0 (by decide) (by decide)
    exact ⟨⟨rfl, .inl rfl⟩, hs.of_same rfl rfl rfl id hen rfl rfl, hn⟩
  clear := by
    rintro ⟨s, h⟩ k todo ⟨⟨⟨phase, hc, hempty⟩, ha⟩, hn⟩
    exact ⟨⟨rfl, .inl rfl⟩, ⟨⟨phase, hc.clear hempty, fun k' hk' => absurd (hempty k') hk'⟩, ha⟩, hn⟩

end SentryCell
